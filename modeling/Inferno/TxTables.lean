import Inferno.FlowsTransmitter
import Inferno.Lib.Outbox

/-!
# Any calls, any draining

Every sequence of calls of `FlowsTransmitter`, with whatever arguments, while
the transmitting thread takes commands off the queue and marks flows expired in
between (`TxTables`). A call may panic, which does not poison the lock its
caller holds: `leaves` says what it leaves behind. A command may make the
thread panic, after which it is gone.

The tables agree at every point between two calls, and the thread's table is
the one they describe as soon as the queue is empty (`tables_agree`).
-/

namespace Inferno

namespace FlowsTransmitter

/-! ## What a call leaves behind -/

/-- `remove_flow_internal`, also if its `send` panics. -/
def removeLeaves (tx : FlowsTransmitter) (id : Nat) : FlowsTransmitter :=
  match tx.removeFlowInternal id with
  | some tx => tx
  | none =>
      let tx := tx.forget id
      { tx with flowsInfo := tx.flowsInfo.set id none }

def removeAllLeaves (tx : FlowsTransmitter) : List Nat → FlowsTransmitter
  | [] => tx
  | id :: ids =>
      match tx.removeFlowInternal id with
      | some tx => tx.removeAllLeaves ids
      | none => tx.removeLeaves id

/-- `scan_expired`. -/
def scanLeaves (tx : FlowsTransmitter) : FlowsTransmitter :=
  match tx.expiredIds (List.range MAX_FLOWS) with
  | some ids => tx.removeAllLeaves ids
  | none => tx

/-- `send`. -/
def sendLeaves (tx : FlowsTransmitter) (c : TxCommand) : FlowsTransmitter := (tx.send c).getD tx

end FlowsTransmitter

/-- A call on the control side. -/
inductive TxCall where
  | addFlow (info : FlowInfo) (fpp bytesPerSample : Nat) (requestedFlowIndex : Option Nat)
      (isMulticast : Bool) (env : AddFlowEnv)
  | removeFlow (handle : FlowHandle)
  | removeMulticastFlow (index : Nat)
  | setChannels (handle : FlowHandle) (channelIndices : List (Option Nat))
  | activateMulticastFlow (flowIndex : Nat)

/-- The control side after a call. -/
def TxCall.leaves (tx : FlowsTransmitter) : TxCall → FlowsTransmitter
  | .addFlow info fpp bytesPerSample requestedFlowIndex isMulticast env =>
      match tx.addFlow info fpp bytesPerSample requestedFlowIndex isMulticast env with
      | some (tx, _) => tx
      | none =>
          match tx.ipPortToId info.dst with
          | some flowIndex => tx.sendLeaves (.setChannels flowIndex info.localChannelIndices)
          | none => tx.scanLeaves
  | .removeFlow handle =>
      match tx.removeFlow handle with
      | some (tx, _) => tx
      | none =>
          match tx.getFlow handle with
          | some (id, _) => tx.removeLeaves id
          | none => tx
  | .removeMulticastFlow index =>
      match tx.removeMulticastFlow index with
      | some (tx, _) => tx
      | none => tx.removeLeaves index
  | .setChannels handle channelIndices =>
      match tx.setChannels handle channelIndices with
      | some (tx, _) => tx
      | none =>
          match tx.getFlow handle with
          | some (index, _) => tx.sendLeaves (.setChannels index channelIndices)
          | none => tx
  | .activateMulticastFlow flowIndex => (tx.activateMulticastFlow flowIndex).getD tx

/-! ## Both sides -/

/-- The control side and the thread's table. -/
structure TxTables where
  tx : FlowsTransmitter
  slots : List (Option Flow)

/-- What happens next: a call is made, the thread takes a command, with this
clock, or it finds that the flow in a slot has expired. -/
inductive TxTablesEvent where
  | call (c : TxCall)
  | drain (now : Option Clock)
  | expire (slot : Nat)

namespace TxTables

def start (flags : Flag → Bool) : TxTables where
  tx := .start flags
  slots := List.replicate MAX_FLOWS none

def drain (sampleRate : BitVec 32) (w : TxTables) (now : Option Clock) : TxTables :=
  match w.tx.commands with
  | [] => w
  | c :: cs =>
      match handleCommand sampleRate now w.slots w.tx.flags c with
      | some (slots, flags) =>
          { tx := { w.tx with commands := cs, flags := flags }, slots := slots }
      | none => { w with tx := { w.tx with receiverGone := true } }

def expire (w : TxTables) (slot : Nat) : TxTables :=
  match w.slots[slot]? with
  | some (some flow) =>
      { w with tx := { w.tx with flags := Function.update w.tx.flags flow.expired true } }
  | _ => w

/-- One event; a thread that is gone does nothing. -/
def step (sampleRate : BitVec 32) (w : TxTables) : TxTablesEvent → TxTables
  | .call c => { w with tx := c.leaves w.tx }
  | .drain now => if w.tx.receiverGone then w else w.drain sampleRate now
  | .expire slot => if w.tx.receiverGone then w else w.expire slot

def run (sampleRate : BitVec 32) (w : TxTables) (events : List TxTablesEvent) : TxTables :=
  events.foldl (step sampleRate) w

end TxTables

/-! ## Channels and the queue -/

/-- The channels of the flow in a slot of the thread's table. -/
def slotChannels (slots : List (Option Flow)) (index : Nat) : Option (List (Option Nat)) :=
  slots[index]?.join.map Flow.channelIndices

/-- What a command does to them. -/
def channelsAfter (p : Nat → Option (List (Option Nat))) :
    TxCommand → Nat → Option (List (Option Nat))
  | .addFlow index _ channelIndices _ _ _ _ => Function.update p index (some channelIndices)
  | .removeFlow index => Function.update p index none
  | .setChannels index channelIndices => Function.update p index (some channelIndices)
  | _ => p

/-- A command for the slots as they are: a flow is added to an empty one,
channels are set in an occupied one. -/
def CommandTaken (p : Nat → Option (List (Option Nat))) : TxCommand → Prop
  | .addFlow index _ _ _ _ _ _ => index < MAX_FLOWS ∧ p index = none
  | .removeFlow index => index < MAX_FLOWS
  | .setChannels index _ => (p index).isSome
  | _ => True

/-- The channels of a flow as the control side knows them. -/
def FlowsTransmitter.infoChannels (tx : FlowsTransmitter) (id : Nat) :
    Option (List (Option Nat)) :=
  tx.flowsInfo[id]?.join.map FlowInfo.localChannelIndices

open Outbox in
/-- The tables agree with each other, and with the thread's one when the queue
is drained, which it can be. -/
structure FlowsTransmitter.Together (slots : List (Option Flow)) (tx : FlowsTransmitter) :
    Prop where
  tables : tx.Tables
  remote : ∀ id flow info, tx.flows id = some flow → tx.flowsInfo[id]? = some (some info) →
    info.dst = flow.remote
  queue : tx.receiverGone = false →
    Accepted channelsAfter CommandTaken (slotChannels slots) tx.commands
  drained : tx.receiverGone = false →
    drained channelsAfter (slotChannels slots) tx.commands = tx.infoChannels

namespace FlowsTransmitter

section

variable {slots : List (Option Flow)} {tx : FlowsTransmitter}

theorem Tables.congr {tx' : FlowsTransmitter} (h : tx.Tables) (hf : tx'.flows = tx.flows)
    (ha : tx'.ipPortToId = tx.ipPortToId) (hi : tx'.flowsInfo = tx.flowsInfo) : tx'.Tables := by
  obtain ⟨h1, h2, h3, h4, h5⟩ := h
  refine ⟨?_, ?_, ?_, ?_, ?_⟩ <;> simpa only [hf, ha, hi]

/-- The fields the invariant is about. -/
theorem Together.congr {tx' : FlowsTransmitter} (h : tx.Together slots)
    (hf : tx'.flows = tx.flows) (ha : tx'.ipPortToId = tx.ipPortToId)
    (hi : tx'.flowsInfo = tx.flowsInfo) (hc : tx'.commands = tx.commands)
    (hg : tx'.receiverGone = tx.receiverGone) : tx'.Together slots := by
  obtain ⟨h1, h2, h3, h4⟩ := h
  refine ⟨h1.congr hf ha hi, ?_, ?_, ?_⟩
  · simpa only [hf, hi]
  · simpa only [hc, hg]
  · have hinfo : tx'.infoChannels = tx.infoChannels := by
      funext id
      unfold infoChannels
      rw [hi]
    rw [hc, hg, hinfo]
    exact h4

theorem Together.saveState (h : tx.Together slots) : tx.saveState.Together slots := by
  obtain ⟨h1, h2, h3, h4, h5, _⟩ := tx.saveState_fields
  exact h.congr h1 h2 h3 h4 h5

theorem Tables.infoChannels_isSome (h : tx.Tables) (id : Nat) :
    (tx.infoChannels id).isSome = (tx.flows id).isSome := by
  unfold infoChannels
  cases hid : tx.flows id with
  | some flow =>
      obtain ⟨info, hinfo⟩ := h.info id flow hid
      rw [hinfo]
      rfl
  | none =>
      rcases hinfo : tx.flowsInfo[id]? with _ | _ | info
      · rfl
      · rfl
      · have hlive := h.live id info hinfo
        rw [hid] at hlive
        cases hlive

/-- New information at one id. -/
theorem infoChannels_set {id : Nat} (hlt : id < tx.flowsInfo.length) (o : Option FlowInfo) :
    infoChannels { tx with flowsInfo := tx.flowsInfo.set id o } =
      Function.update tx.infoChannels id (o.map FlowInfo.localChannelIndices) := by
  funext id'
  unfold infoChannels
  by_cases hne : id' = id
  · rw [hne, List.getElem?_set_self hlt, Function.update_self]
    rfl
  · rw [List.getElem?_set_ne (Ne.symm hne), Function.update_of_ne hne]

/-! ## Removing -/

/-- What a removal leaves, whether its `send` fails or not. -/
theorem removeLeaves_fields (h : tx.Tables) {id : Nat} {flow : FlowData}
    (hid : tx.flows id = some flow) :
    (tx.removeLeaves id).flows = Function.update tx.flows id none ∧
      (tx.removeLeaves id).ipPortToId = Function.update tx.ipPortToId flow.remote none ∧
      (tx.removeLeaves id).flowsInfo = tx.flowsInfo.set id none ∧
      (tx.removeLeaves id).receiverGone = tx.receiverGone ∧
      (tx.receiverGone = false →
        (tx.removeLeaves id).commands = tx.commands ++ [.removeFlow id]) := by
  unfold removeLeaves
  cases hopen : tx.receiverGone with
  | false =>
      rw [removeFlowInternal_eq h hopen hid]
      exact ⟨rfl, rfl, rfl, hopen, fun _ => rfl⟩
  | true =>
      rw [removeFlowInternal_gone h hopen hid, forget_eq hid]
      exact ⟨rfl, rfl, rfl, hopen, fun hf => by cases hf⟩

theorem Together.removeLeaves (h : tx.Together slots) {id : Nat} {flow : FlowData}
    (hid : tx.flows id = some flow) : (tx.removeLeaves id).Together slots := by
  obtain ⟨hf, ha, hi, hg, hc⟩ := removeLeaves_fields h.tables hid
  have hlt := h.tables.lt hid
  refine ⟨(h.tables.remove hid).congr hf ha hi, ?_, ?_, ?_⟩
  · intro id' flow' info' hflow' hinfo'
    rw [hf] at hflow'
    rw [hi] at hinfo'
    have hne : id' ≠ id := by
      rintro rfl
      rw [Function.update_self] at hflow'
      cases hflow'
    rw [Function.update_of_ne hne] at hflow'
    rw [List.getElem?_set_ne (Ne.symm hne)] at hinfo'
    exact h.remote id' flow' info' hflow' hinfo'
  · intro hopen
    rw [hg] at hopen
    rw [hc hopen]
    exact (h.queue hopen).snoc hlt
  · intro hopen
    rw [hg] at hopen
    rw [hc hopen, Outbox.drained_snoc, h.drained hopen]
    have hset := @infoChannels_set tx id (h.tables.length ▸ hlt) none
    rw [← hi] at hset
    exact hset.symm

/-! ## The expiry scan -/

theorem removeLeaves_of_some {tx' : FlowsTransmitter} {id : Nat}
    (h : tx.removeFlowInternal id = some tx') : tx.removeLeaves id = tx' := by
  rw [FlowsTransmitter.removeLeaves, h]

theorem removeAllLeaves_of_some {tx' : FlowsTransmitter} {ids : List Nat}
    (h : ids.foldlM removeFlowInternal tx = some tx') : tx.removeAllLeaves ids = tx' := by
  induction ids generalizing tx with
  | nil => exact Option.some.inj h
  | cons id ids ih =>
      rw [List.foldlM_cons] at h
      obtain ⟨tx₁, hrun, hrest⟩ := Option.bind_eq_some_iff.mp h
      rw [FlowsTransmitter.removeAllLeaves, hrun]
      exact ih hrest

theorem scanLeaves_of_some {tx' : FlowsTransmitter} (h : tx.scanExpired = some tx') :
    tx.scanLeaves = tx' := by
  obtain ⟨ids, hids, hrun⟩ := Option.bind_eq_some_iff.mp h
  rw [FlowsTransmitter.scanLeaves, hids]
  exact removeAllLeaves_of_some hrun

/-- Removing live flows keeps the tables together and adds no destination. -/
theorem Together.removeAllLeaves (h : tx.Together slots) {ids : List Nat} (hnodup : ids.Nodup)
    (hlive : ∀ id ∈ ids, (tx.flows id).isSome) :
    (tx.removeAllLeaves ids).Together slots ∧
      ∀ a, tx.ipPortToId a = none → (tx.removeAllLeaves ids).ipPortToId a = none := by
  induction ids generalizing tx with
  | nil => exact ⟨h, fun _ ha => ha⟩
  | cons id ids ih =>
      obtain ⟨flow, hflow⟩ := Option.isSome_iff_exists.mp (hlive id List.mem_cons_self)
      obtain ⟨hnot, hnodup⟩ := List.nodup_cons.mp hnodup
      obtain ⟨hf, ha, _⟩ := removeLeaves_fields h.tables hflow
      have h₁ := h.removeLeaves hflow
      have hdst : ∀ a, tx.ipPortToId a = none → (tx.removeLeaves id).ipPortToId a = none := by
        intro a hnone
        rw [ha]
        by_cases hne : a = flow.remote
        · rw [hne, Function.update_self]
        · rw [Function.update_of_ne hne, hnone]
      rw [FlowsTransmitter.removeAllLeaves]
      cases hrun : tx.removeFlowInternal id with
      | none => exact ⟨h₁, hdst⟩
      | some tx₁ =>
          rw [removeLeaves_of_some hrun] at hf h₁ hdst
          have hlive₁ : ∀ id' ∈ ids, (tx₁.flows id').isSome := by
            intro id' hid'
            have hne : id' ≠ id := fun heq => hnot (heq ▸ hid')
            rw [hf, Function.update_of_ne hne]
            exact hlive id' (List.mem_cons_of_mem _ hid')
          obtain ⟨h', hdst'⟩ := ih h₁ hnodup hlive₁
          exact ⟨h', fun a hnone => hdst' a (hdst a hnone)⟩

theorem Together.scanLeaves (h : tx.Together slots) : tx.scanLeaves.Together slots ∧
    ∀ a, tx.ipPortToId a = none → tx.scanLeaves.ipPortToId a = none := by
  obtain ⟨ids, hids, hsub, hlive⟩ := h.tables.expiredIds (List.range MAX_FLOWS)
  rw [FlowsTransmitter.scanLeaves, hids]
  exact h.removeAllLeaves (hsub.nodup List.nodup_range) hlive

/-! ## Adding -/

/-- The search for an index changes the sequence number; the index is free. -/
theorem chooseIndex_cases {requested : Option Nat} {attempts : Nat} {tx' : FlowsTransmitter}
    {r : Except IoError Nat}
    (h : FlowsTransmitter.chooseIndex requested attempts tx = some (tx', r)) :
    (∃ n, tx' = { tx with flowSeqId := n }) ∧
      ∀ id, r = .ok id → tx.flows id = none ∧ (id < MAX_FLOWS ∨ id < tx.flowsInfo.length) := by
  induction attempts generalizing tx with
  | zero =>
      cases h
      exact ⟨⟨_, rfl⟩, fun id hid => by cases hid⟩
  | succ attempts ih =>
      cases requested with
      | some index =>
          simp only [FlowsTransmitter.chooseIndex] at h
          split at h
          · cases h
            exact ⟨⟨_, rfl⟩, fun id hid => by cases hid⟩
          · next hfree =>
              rcases hinfo : tx.flowsInfo[index]? with _ | _ | info
              · rw [hinfo] at h
                cases h
              · rw [hinfo] at h
                cases h
                refine ⟨⟨_, rfl⟩, fun id hid => ?_⟩
                cases hid
                exact ⟨Option.not_isSome_iff_eq_none.mp hfree,
                  Or.inr (List.getElem?_eq_some_iff.mp hinfo).1⟩
              · rw [hinfo] at h
                cases h
                exact ⟨⟨_, rfl⟩, fun id hid => by cases hid⟩
      | none =>
          simp only [FlowsTransmitter.chooseIndex] at h
          split at h
          · obtain ⟨⟨n, rfl⟩, hfree⟩ := ih h
            exact ⟨⟨n, rfl⟩, hfree⟩
          · next hfree =>
              cases h
              refine ⟨⟨_, rfl⟩, fun id hid => ?_⟩
              cases hid
              exact ⟨Option.not_isSome_iff_eq_none.mp hfree,
                Or.inl (Nat.mod_lt _ (by decide))⟩

theorem Together.insertFlow (h : tx.Together slots) {info : FlowInfo}
    (hnew : tx.ipPortToId info.dst = none) {id : Nat} (hlt : id < MAX_FLOWS)
    (hfree : tx.flows id = none) (fpp bytesPerSample : Nat) (isMulticast : Bool)
    (cookie : BitVec 16) :
    (tx.insertFlow info fpp bytesPerSample isMulticast cookie id).1.Together slots := by
  rw [FlowsTransmitter.insertFlow]
  split
  · exact h
  next hgone =>
  have hopen : tx.receiverGone = false := Bool.eq_false_iff.mpr hgone
  dsimp only
  rw [register_eq (h.tables.length ▸ hlt)]
  refine Together.saveState ⟨?_, ?_, fun _ => ?_, fun _ => ?_⟩
  · exact (@Tables.insert tx h.tables id hlt hfree info ⟨cookie, info.dst, tx.nextFlag⟩ rfl
      hnew).congr rfl rfl rfl
  · intro id' flow' info' hflow' hinfo'
    dsimp only at hflow' hinfo'
    by_cases hne : id' = id
    · rw [hne, Function.update_self] at hflow'
      rw [hne, List.getElem?_set_self (h.tables.length ▸ hlt)] at hinfo'
      cases hflow'
      cases hinfo'
      rfl
    · rw [Function.update_of_ne hne] at hflow'
      rw [List.getElem?_set_ne (Ne.symm hne)] at hinfo'
      exact h.remote id' flow' info' hflow' hinfo'
  · refine (h.queue hopen).snoc ⟨hlt, ?_⟩
    have hnone := h.tables.infoChannels_isSome id
    rw [hfree] at hnone
    rw [h.drained hopen]
    exact Option.not_isSome_iff_eq_none.mp (by rw [hnone]; exact Bool.false_ne_true)
  · rw [Outbox.drained_snoc, h.drained hopen]
    exact (@infoChannels_set tx id (h.tables.length ▸ hlt) (some info)).symm

/-- Channels of a live flow are told to the thread and noted down. -/
theorem Together.setInfo (h : tx.Together slots) (hopen : tx.receiverGone = false) {id : Nat}
    {flow : FlowData} (hid : tx.flows id = some flow) {info : FlowInfo}
    (hdst : info.dst = flow.remote) :
    Together slots { tx with
      commands := tx.commands ++ [.setChannels id info.localChannelIndices]
      flowsInfo := tx.flowsInfo.set id (some info) } := by
  have hlt := h.tables.length ▸ h.tables.lt hid
  refine ⟨(h.tables.setInfo hid info).congr rfl rfl rfl, ?_, fun _ => ?_, fun _ => ?_⟩
  · intro id' flow' info' hflow' hinfo'
    dsimp only at hflow' hinfo'
    by_cases hne : id' = id
    · rw [hne, hid] at hflow'
      rw [hne, List.getElem?_set_self hlt] at hinfo'
      cases hflow'
      cases hinfo'
      exact hdst
    · rw [List.getElem?_set_ne (Ne.symm hne)] at hinfo'
      exact h.remote id' flow' info' hflow' hinfo'
  · refine (h.queue hopen).snoc ?_
    show (Outbox.drained channelsAfter (slotChannels slots) tx.commands id).isSome
    rw [h.drained hopen, h.tables.infoChannels_isSome, hid]
    rfl
  · rw [Outbox.drained_snoc, h.drained hopen]
    exact (infoChannels_set hlt (some info)).symm

/-! ## What a call leaves -/

/-- What `add_flow` leaves behind, also where it panics. -/
inductive Added (tx : FlowsTransmitter) (info : FlowInfo) (fpp bytesPerSample : Nat)
    (isMulticast : Bool) (cookie : BitVec 16) : FlowsTransmitter → Prop where
  | untold {id : Nat} (hip : tx.ipPortToId info.dst = some id) (hgone : tx.receiverGone = true) :
      Added tx info fpp bytesPerSample isMulticast cookie tx
  | told {id : Nat} {flow : FlowData} (hip : tx.ipPortToId info.dst = some id)
      (hopen : tx.receiverGone = false) (hflow : tx.flows id = some flow)
      (hdst : info.dst = flow.remote) :
      Added tx info fpp bytesPerSample isMulticast cookie (saveState { tx with
        commands := tx.commands ++ [.setChannels id info.localChannelIndices]
        flowsInfo := tx.flowsInfo.set id (some info) })
  | scanned (n : BitVec 32) (hip : tx.ipPortToId info.dst = none) :
      Added tx info fpp bytesPerSample isMulticast cookie { tx.scanLeaves with flowSeqId := n }
  | inserted (n : BitVec 32) {id : Nat} (hip : tx.ipPortToId info.dst = none)
      (hfree : tx.scanLeaves.flows id = none)
      (hlt : id < MAX_FLOWS ∨ id < tx.scanLeaves.flowsInfo.length) :
      Added tx info fpp bytesPerSample isMulticast cookie (insertFlow
        { tx.scanLeaves with flowSeqId := n } info fpp bytesPerSample isMulticast cookie id).1

/-- A removal that did not get to the save, or one that did. -/
inductive Removed (tx : FlowsTransmitter) (id : Nat) : FlowsTransmitter → Prop where
  | unsaved : Removed tx id (tx.removeLeaves id)
  | saved : Removed tx id (tx.removeLeaves id).saveState

theorem sendLeaves_gone (hgone : tx.receiverGone = true) (c : TxCommand) :
    tx.sendLeaves c = tx := by
  rw [sendLeaves, send_gone hgone]
  rfl

theorem added_of_addFlow (h : tx.Tables) (info : FlowInfo) (fpp bytesPerSample : Nat)
    (requestedFlowIndex : Option Nat) (isMulticast : Bool) (env : AddFlowEnv) :
    tx.Added info fpp bytesPerSample isMulticast env.cookie
      ((TxCall.addFlow info fpp bytesPerSample requestedFlowIndex isMulticast env).leaves tx) := by
  unfold TxCall.leaves
  cases hip : tx.ipPortToId info.dst with
  | some id =>
      obtain ⟨flow, hflow, hremote⟩ := h.addr _ _ hip
      cases hopen : tx.receiverGone with
      | true =>
          simp only [addFlow_gone hopen hip, hip, sendLeaves_gone hopen]
          exact .untold hip hopen
      | false =>
          simp only [addFlow_told h hopen hip hflow]
          exact .told hip hopen hflow hremote.symm
  | none =>
      unfold FlowsTransmitter.addFlow
      have hleft := @Added.scanned tx info fpp bytesPerSample isMulticast env.cookie
        tx.scanLeaves.flowSeqId hip
      cases hscan : tx.scanExpired with
      | none =>
          simp only [hip, Option.bind_eq_bind, Option.bind_none]
          exact hleft
      | some tx₁ =>
          have hscanned := scanLeaves_of_some hscan
          simp only [hip, Option.bind_eq_bind, Option.bind_some]
          cases hchoose : FlowsTransmitter.chooseIndex requestedFlowIndex (MAX_FLOWS + 1) tx₁ with
          | none =>
              simp only [Option.bind_none]
              exact hleft
          | some r =>
              obtain ⟨tx₂, r⟩ := r
              obtain ⟨⟨n, rfl⟩, hfree⟩ := chooseIndex_cases hchoose
              rw [← hscanned] at hfree ⊢
              simp only [Option.bind_some]
              cases r with
              | error e => exact .scanned n hip
              | ok id =>
                  obtain ⟨hnone, hlt⟩ := hfree id rfl
                  cases env.socketOk with
                  | true => exact .inserted n hip hnone hlt
                  | false => exact .scanned n hip

/-- A flow was granted: the one that is there already, or a new one at an index
that is free after the scan. -/
theorem addFlow_granted (h : tx.Tables) {info : FlowInfo} {fpp bytesPerSample : Nat}
    {requestedFlowIndex : Option Nat} {isMulticast : Bool} {env : AddFlowEnv}
    {tx' : FlowsTransmitter} {r : Nat × FlowHandle}
    (hrun : tx.addFlow info fpp bytesPerSample requestedFlowIndex isMulticast env =
      some (tx', .ok r)) :
    (tx.ipPortToId info.dst = some r.1 ∧ tx.receiverGone = false ∧
      r.1 < tx.flowsInfo.length ∧ tx' = saveState { tx with
        commands := tx.commands ++ [.setChannels r.1 info.localChannelIndices]
        flowsInfo := tx.flowsInfo.set r.1 (some info) }) ∨
    (tx.ipPortToId info.dst = none ∧ ∃ tx₁ tx₀ : FlowsTransmitter, tx.scanExpired = some tx₁ ∧
      tx₁.flows r.1 = none ∧ r.1 < tx₁.flowsInfo.length ∧ tx' = tx₀.saveState ∧
      tx₀.savedTxFlows = tx₁.savedTxFlows ∧
      tx₀.flowsInfo = tx₁.flowsInfo.set r.1 (some info) ∧
      tx₀.commands = tx₁.commands ++ [.addFlow r.1 info.dst info.localChannelIndices fpp
        bytesPerSample (!isMulticast) tx₁.nextFlag]) := by
  cases hip : tx.ipPortToId info.dst with
  | some id =>
      obtain ⟨flow, hflow, _⟩ := h.addr _ _ hip
      cases hopen : tx.receiverGone with
      | true =>
          rw [addFlow_gone hopen hip] at hrun
          cases hrun
      | false =>
          rw [addFlow_told h hopen hip hflow] at hrun
          cases hrun
          exact Or.inl ⟨rfl, rfl, h.length ▸ h.lt hflow, by rw [hopen]⟩
  | none =>
      unfold FlowsTransmitter.addFlow at hrun
      rw [hip] at hrun
      obtain ⟨tx₁, hscan, hrun⟩ := Option.bind_eq_some_iff.mp hrun
      obtain ⟨⟨tx₂, chosen⟩, hchoose, hrun⟩ := Option.bind_eq_some_iff.mp hrun
      obtain ⟨⟨n, rfl⟩, hfree⟩ := chooseIndex_cases hchoose
      cases chosen with
      | error e => cases hrun
      | ok id =>
          obtain ⟨hnone, _⟩ := hfree id rfl
          dsimp only at hrun
          split at hrun
          · unfold insertFlow at hrun
            split at hrun
            · cases hrun
            · unfold register at hrun
              dsimp only at hrun
              split at hrun
              · cases hrun
              · next hlt =>
                  cases hrun
                  exact Or.inr ⟨rfl, tx₁, _, hscan, hnone, Nat.not_le.mp hlt, rfl, rfl, rfl, rfl⟩
          · cases hrun

theorem removed_of_removeFlow (tx : FlowsTransmitter) (handle : FlowHandle) :
    (TxCall.removeFlow handle).leaves tx = tx ∨
      ∃ id flow, tx.getFlow handle = some (id, flow) ∧
        tx.Removed id ((TxCall.removeFlow handle).leaves tx) := by
  unfold TxCall.leaves FlowsTransmitter.removeFlow
  cases hget : tx.getFlow handle with
  | none => exact Or.inl (by simp only [hget])
  | some r =>
      refine Or.inr ⟨r.1, r.2, rfl, ?_⟩
      cases hrun : tx.removeFlowInternal r.1 with
      | none =>
          simp only [hget, hrun, Option.bind_eq_bind, Option.bind_none]
          exact .unsaved
      | some tx₁ =>
          simp only [hget, hrun, Option.bind_eq_bind, Option.bind_some]
          rw [← removeLeaves_of_some hrun]
          exact .saved

theorem removed_of_removeMulticastFlow (h : tx.Tables) (index : Nat) :
    (TxCall.removeMulticastFlow index).leaves tx = tx ∨
      ∃ flow, tx.flows index = some flow ∧
        tx.Removed index ((TxCall.removeMulticastFlow index).leaves tx) := by
  unfold TxCall.leaves FlowsTransmitter.removeMulticastFlow
  rcases hinfo : tx.flowsInfo[index]? with _ | _ | info
  · exact Or.inl (by simp only [hinfo])
  · exact Or.inl (by simp only [hinfo])
  · obtain ⟨flow, hflow⟩ := Option.isSome_iff_exists.mp (h.live index info hinfo)
    cases hmc : info.isMulticast with
    | false => exact Or.inl (by simp only [hinfo, hmc, Bool.false_eq_true, if_false])
    | true =>
        refine Or.inr ⟨flow, hflow, ?_⟩
        cases hrun : tx.removeFlowInternal index with
        | none =>
            simp only [hinfo, hmc, hrun, if_true, Option.bind_eq_bind, Option.bind_none]
            exact .unsaved
        | some tx₁ =>
            simp only [hinfo, hmc, hrun, if_true, Option.bind_eq_bind, Option.bind_some]
            rw [← removeLeaves_of_some hrun]
            exact .saved

/-- The channels are told and noted down, or nothing is. -/
theorem setChannels_leaves (h : tx.Tables) (handle : FlowHandle) (chs : List (Option Nat)) :
    (TxCall.setChannels handle chs).leaves tx = tx ∨
      ∃ id flow info, tx.receiverGone = false ∧ tx.getFlow handle = some (id, flow) ∧
        tx.flowsInfo[id]? = some (some info) ∧
        (TxCall.setChannels handle chs).leaves tx = { tx with
          commands := tx.commands ++ [.setChannels id chs]
          flowsInfo := tx.flowsInfo.set id (some { info with localChannelIndices := chs }) } := by
  unfold TxCall.leaves FlowsTransmitter.setChannels
  cases hget : tx.getFlow handle with
  | none => exact Or.inl (by simp only [hget])
  | some r =>
      obtain ⟨info, hinfo⟩ := h.info _ _ (getFlow_flows hget)
      cases hopen : tx.receiverGone with
      | true =>
          refine Or.inl ?_
          simp only [hget, send_gone hopen, Option.bind_eq_bind, Option.bind_none]
          exact sendLeaves_gone hopen _
      | false =>
          refine Or.inr ⟨r.1, r.2, info, rfl, rfl, hinfo, ?_⟩
          simp only [hget, hopen, send_eq hopen, hinfo, Option.bind_eq_bind, Option.bind_some]

/-! ## The calls -/

theorem Together.added {tx' : FlowsTransmitter} {info : FlowInfo} {fpp bytesPerSample : Nat}
    {isMulticast : Bool} {cookie : BitVec 16} (h : tx.Together slots)
    (hadded : tx.Added info fpp bytesPerSample isMulticast cookie tx') : tx'.Together slots := by
  cases hadded with
  | untold => exact h
  | told hip hopen hflow hdst => exact (h.setInfo hopen hflow hdst).saveState
  | scanned n hip => exact h.scanLeaves.1.congr rfl rfl rfl rfl rfl
  | inserted n hip hfree hlt =>
      obtain ⟨h₁, hdst⟩ := h.scanLeaves
      have h₂ : Together slots { tx.scanLeaves with flowSeqId := n } :=
        h₁.congr rfl rfl rfl rfl rfl
      rw [h₁.tables.length, or_self] at hlt
      exact h₂.insertFlow (hdst _ hip) hlt hfree fpp bytesPerSample isMulticast cookie

theorem Together.removed {tx' : FlowsTransmitter} {id : Nat} (h : tx.Together slots)
    (hremoved : tx.Removed id tx') {flow : FlowData} (hflow : tx.flows id = some flow) :
    tx'.Together slots := by
  cases hremoved with
  | unsaved => exact h.removeLeaves hflow
  | saved => exact (h.removeLeaves hflow).saveState

theorem Together.addFlow (h : tx.Together slots) (info : FlowInfo) (fpp bytesPerSample : Nat)
    (requestedFlowIndex : Option Nat) (isMulticast : Bool) (env : AddFlowEnv) :
    ((TxCall.addFlow info fpp bytesPerSample requestedFlowIndex isMulticast env).leaves
      tx).Together slots :=
  h.added (added_of_addFlow h.tables info fpp bytesPerSample requestedFlowIndex isMulticast env)

theorem Together.removeFlow (h : tx.Together slots) (handle : FlowHandle) :
    ((TxCall.removeFlow handle).leaves tx).Together slots := by
  rcases tx.removed_of_removeFlow handle with heq | ⟨id, flow, hget, hremoved⟩
  · rw [heq]
    exact h
  · exact h.removed hremoved (getFlow_flows hget)

theorem Together.removeMulticastFlow (h : tx.Together slots) (index : Nat) :
    ((TxCall.removeMulticastFlow index).leaves tx).Together slots := by
  rcases removed_of_removeMulticastFlow h.tables index with heq | ⟨flow, hflow, hremoved⟩
  · rw [heq]
    exact h
  · exact h.removed hremoved hflow

theorem Together.setChannels (h : tx.Together slots) (handle : FlowHandle)
    (chs : List (Option Nat)) : ((TxCall.setChannels handle chs).leaves tx).Together slots := by
  rcases setChannels_leaves h.tables handle chs with heq | ⟨id, flow, info, hopen, hget, hinfo, heq⟩
  · rw [heq]
    exact h
  · have hflow := getFlow_flows hget
    rw [heq]
    exact @Together.setInfo slots tx h hopen id flow hflow
      { info with localChannelIndices := chs } (h.remote _ _ info hflow hinfo)

theorem Together.activateMulticastFlow (h : tx.Together slots) (flowIndex : Nat) :
    ((TxCall.activateMulticastFlow flowIndex).leaves tx).Together slots := by
  unfold TxCall.leaves FlowsTransmitter.activateMulticastFlow
  cases hflow : tx.flows flowIndex with
  | none =>
      simp only [hflow, Option.bind_eq_bind, Option.bind_none, Option.getD_none]
      exact h
  | some flow =>
      simp only [hflow, Option.bind_eq_bind, Option.bind_some, Option.getD_some]
      exact h.congr rfl rfl rfl rfl rfl

theorem Together.call (h : tx.Together slots) (c : TxCall) : (c.leaves tx).Together slots := by
  cases c with
  | addFlow info fpp bytesPerSample requested isMulticast env =>
      exact h.addFlow info fpp bytesPerSample requested isMulticast env
  | removeFlow handle => exact h.removeFlow handle
  | removeMulticastFlow index => exact h.removeMulticastFlow index
  | setChannels handle chs => exact h.setChannels handle chs
  | activateMulticastFlow flowIndex => exact h.activateMulticastFlow flowIndex

theorem start_together (flags : Flag → Bool) :
    (start flags).Together (List.replicate MAX_FLOWS none) where
  tables := (start_consistent flags).tables
  remote := fun id flow info hflow => by cases hflow
  queue := fun _ => trivial
  drained := fun _ => by
    funext id
    show slotChannels (List.replicate MAX_FLOWS none) id =
      Option.map _ (List.replicate MAX_FLOWS none)[id]?.join
    rw [slotChannels]
    rcases lt_or_ge id MAX_FLOWS with hlt | hge
    · rw [List.getElem?_replicate_of_lt hlt, List.getElem?_replicate_of_lt hlt]
      rfl
    · rw [List.getElem?_eq_none (by rw [List.length_replicate]; exact hge),
        List.getElem?_eq_none (by rw [List.length_replicate]; exact hge)]
      rfl

end

end FlowsTransmitter

/-! ## The thread -/

theorem newFlow_channels {sampleRate : BitVec 32} {now : Option Clock} {socket : SocketAddr}
    {chs : List (Option Nat)} {fpp bytesPerSample : Nat} {needsKeepalives : Bool} {flag : Flag}
    {flow : Flow}
    (h : newFlow sampleRate now socket chs fpp bytesPerSample needsKeepalives flag = some flow) :
    flow.channelIndices = chs := by
  unfold newFlow at h
  cases now with
  | none =>
      cases h
      rfl
  | some now =>
      obtain ⟨flow₁, hboot, hend⟩ := Option.bind_eq_some_iff.mp h
      unfold Flow.bootstrapNextTs at hboot
      dsimp only at hboot
      split at hboot
      · cases hboot
      · cases hboot
        split at hend <;> cases hend <;> rfl

theorem changeChannels_channels {sampleRate : BitVec 32} {now : Option Clock} {expired : Bool}
    {chs : List (Option Nat)} {flow flow' : Flow}
    (h : changeChannels sampleRate now expired chs flow = some flow') :
    flow'.channelIndices = chs := by
  unfold changeChannels at h
  cases now with
  | none =>
      cases h
      rfl
  | some now =>
      dsimp only at h
      split at h
      · unfold Flow.bootstrapNextTs at h
        dsimp only at h
        split at h
        · cases h
        · cases h
          rfl
      · cases h
        rfl

theorem slotChannels_set {slots : List (Option Flow)} {index : Nat} (hlt : index < slots.length)
    (o : Option Flow) : slotChannels (slots.set index o) =
      Function.update (slotChannels slots) index (o.map Flow.channelIndices) := by
  funext i
  unfold slotChannels
  by_cases hne : i = index
  · rw [hne, List.getElem?_set_self hlt, Function.update_self]
    rfl
  · rw [List.getElem?_set_ne (Ne.symm hne), Function.update_of_ne hne]

/-- The thread's table after a command. -/
theorem handleCommand_channels {sampleRate : BitVec 32} {now : Option Clock}
    {slots slots' : List (Option Flow)} {flags flags' : Flag → Bool} {c : TxCommand}
    (h : handleCommand sampleRate now slots flags c = some (slots', flags')) :
    slotChannels slots' = channelsAfter (slotChannels slots) c := by
  cases c with
  | noOp =>
      cases h
      rfl
  | shutdown =>
      cases h
      rfl
  | addFlow index socket chs fpp bytesPerSample needsKeepalives flag =>
      obtain ⟨flow, hnew, hset⟩ := Option.bind_eq_some_iff.mp h
      split at hset
      · next hlt =>
          cases hset
          rw [slotChannels_set hlt, Option.map_some, newFlow_channels hnew]
          rfl
      · cases hset
  | removeFlow index =>
      rw [handleCommand] at h
      split at h
      · next hlt =>
          cases h
          rw [slotChannels_set hlt]
          rfl
      · cases h
  | setChannels index chs =>
      rw [handleCommand] at h
      split at h
      · next flow hget =>
          obtain ⟨flow', hchange, hset⟩ := Option.bind_eq_some_iff.mp h
          cases hset
          rw [slotChannels_set (List.getElem?_eq_some_iff.mp hget).1, Option.map_some,
            changeChannels_channels hchange]
          rfl
      · cases h

/-! ## Every run -/

namespace TxTables

open FlowsTransmitter

theorem together_drain {w : TxTables} (h : w.tx.Together w.slots)
    (hopen : w.tx.receiverGone = false) (sampleRate : BitVec 32) (now : Option Clock) :
    (w.drain sampleRate now).tx.Together (w.drain sampleRate now).slots := by
  obtain ⟨tables, remote, queue, drained⟩ := h
  have hq := queue hopen
  have hd := drained hopen
  unfold TxTables.drain
  cases hcs : w.tx.commands with
  | nil => exact ⟨tables, remote, queue, drained⟩
  | cons c cs =>
      rw [hcs] at hq hd
      cases hrun : handleCommand sampleRate now w.slots w.tx.flags c with
      | none =>
          simp only [hrun]
          exact ⟨tables.congr rfl rfl rfl, remote, fun hf => Bool.noConfusion hf,
            fun hf => Bool.noConfusion hf⟩
      | some r =>
          obtain ⟨slots', flags'⟩ := r
          have hch := handleCommand_channels hrun
          simp only [hrun]
          refine ⟨tables.congr rfl rfl rfl, remote, fun _ => ?_, fun _ => ?_⟩
          · rw [hch]
            exact hq.2
          · rw [hch]
            exact hd

theorem together_step {w : TxTables} (h : w.tx.Together w.slots) (sampleRate : BitVec 32)
    (e : TxTablesEvent) : (w.step sampleRate e).tx.Together (w.step sampleRate e).slots := by
  cases e with
  | call c => exact h.call c
  | drain now =>
      rw [TxTables.step]
      split
      · exact h
      · next hgone => exact together_drain h (Bool.eq_false_iff.mpr hgone) sampleRate now
  | expire slot =>
      rw [TxTables.step, TxTables.expire]
      split
      · exact h
      split
      · exact h.congr rfl rfl rfl rfl rfl
      · exact h

theorem together_run {w : TxTables} (h : w.tx.Together w.slots) (sampleRate : BitVec 32)
    (events : List TxTablesEvent) :
    (w.run sampleRate events).tx.Together (w.run sampleRate events).slots := by
  induction events generalizing w with
  | nil => exact h
  | cons e events ih => exact ih (together_step h sampleRate e)

/-- The tables agree, and so does the thread's as soon as it has caught up. -/
structure Agree (w : TxTables) : Prop where
  live : ∀ id, (w.tx.flows id).isSome ↔ ∃ info, w.tx.flowsInfo[id]? = some (some info)
  destination : ∀ a id, w.tx.ipPortToId a = some id ↔
    ∃ flow, w.tx.flows id = some flow ∧ flow.remote = a
  remote : ∀ id flow info, w.tx.flows id = some flow → w.tx.flowsInfo[id]? = some (some info) →
    flow.remote = info.dst
  next : w.tx.receiverGone = false → ∀ c cs, w.tx.commands = c :: cs →
    CommandTaken (slotChannels w.slots) c
  caughtUp : w.tx.receiverGone = false → w.tx.commands = [] →
    ∀ id, slotChannels w.slots id = w.tx.infoChannels id

/-- After every sequence of calls, however the thread keeps up with it. -/
theorem tables_agree (sampleRate : BitVec 32) (flags : Flag → Bool)
    (events : List TxTablesEvent) : Agree (run sampleRate (start flags) events) := by
  have h := @together_run (start flags) (start_together flags) sampleRate events
  refine ⟨fun id => ⟨fun hlive => ?_, fun hinfo => ?_⟩, fun a id => ⟨h.tables.addr a id, ?_⟩,
    fun id flow info hflow hinfo => (h.remote id flow info hflow hinfo).symm,
    fun hopen c cs hcs => ?_, fun hopen hcs id => ?_⟩
  · obtain ⟨flow, hflow⟩ := Option.isSome_iff_exists.mp hlive
    exact h.tables.info id flow hflow
  · obtain ⟨info, hinfo⟩ := hinfo
    exact h.tables.live id info hinfo
  · rintro ⟨flow, hflow, rfl⟩
    exact h.tables.id id flow hflow
  · have hq := h.queue hopen
    rw [hcs] at hq
    exact hq.1
  · have hd := h.drained hopen
    rw [hcs, Outbox.drained_nil] at hd
    exact congrFun hd id

end TxTables

end Inferno
