import Inferno.FlowsAnswers
import Inferno.TxTables

/-!
# Whose flags the thread clears

A multicast flow is silent as long as its `expired` flag is set. The thread
clears the flag of a flow when it takes `SetChannels` for its slot. Calls for
unicast flows that keep off multicast flows (`Spared`) send `SetChannels` only
for slots that will hold a unicast flow when the command is taken (`Lanes`), so
the thread never wakes a multicast flow.
-/

namespace Inferno

namespace FlowsTransmitter

/-- The multicast flow at an id. -/
def multicastAt (tx : FlowsTransmitter) (id : Nat) : Option (FlowInfo × FlowData) :=
  match tx.flowsInfo[id]?, tx.flows id with
  | some (some info), some flow => if info.isMulticast then some (info, flow) else none
  | _, _ => none

end FlowsTransmitter

/-- The flag of the flow in a slot of the thread's table. -/
def slotFlag (slots : List (Option Flow)) (index : Nat) : Option Flag :=
  slots[index]?.join.map Flow.expired

/-- What a command does to them. -/
def flagsAfter (p : Nat → Option Flag) : TxCommand → Nat → Option Flag
  | .addFlow index _ _ _ _ _ expired => Function.update p index (some expired)
  | .removeFlow index => Function.update p index none
  | _ => p

/-- A command that clears no flag of a multicast flow. -/
def FlowsTransmitter.Spares (tx : FlowsTransmitter) (p : Nat → Option Flag) : TxCommand → Prop
  | .setChannels index _ => ∃ f, p index = some f ∧ f < tx.nextFlag ∧
      ∀ id m, tx.multicastAt id = some m → m.2.expired ≠ f
  | _ => True

open Outbox in
/-- Live flows have flags of their own, which the thread's slots will have too,
and no command on its way clears that of a multicast flow. -/
structure FlowsTransmitter.Lanes (slots : List (Option Flow)) (tx : FlowsTransmitter) : Prop where
  flag : ∀ id flow, tx.flows id = some flow → flow.expired < tx.nextFlag
  apart : ∀ id₁ id₂ flow₁ flow₂, tx.flows id₁ = some flow₁ → tx.flows id₂ = some flow₂ →
    flow₁.expired = flow₂.expired → id₁ = id₂
  queue : tx.receiverGone = false →
    Accepted flagsAfter tx.Spares (slotFlag slots) tx.commands
  drained : tx.receiverGone = false →
    ∀ id, drained flagsAfter (slotFlag slots) tx.commands id = (tx.flows id).map FlowData.expired

namespace FlowsTransmitter

section

variable {slots : List (Option Flow)} {tx : FlowsTransmitter}

theorem multicastAt_eq_some_iff {id : Nat} {info : FlowInfo} {flow : FlowData} :
    tx.multicastAt id = some (info, flow) ↔
      tx.flowsInfo[id]? = some (some info) ∧ tx.flows id = some flow ∧ info.isMulticast = true := by
  unfold multicastAt
  constructor
  · intro h
    split at h
    · next info' flow' hinfo hflow =>
        split at h
        · next hmc =>
            cases h
            exact ⟨hinfo, hflow, hmc⟩
        · cases h
    · cases h
  · rintro ⟨hinfo, hflow, hmc⟩
    rw [hinfo, hflow]
    exact if_pos hmc

/-- Both tables at an id decide. -/
theorem multicastAt_congr {tx' : FlowsTransmitter} {id : Nat}
    (hf : tx'.flows id = tx.flows id) (hi : tx'.flowsInfo[id]? = tx.flowsInfo[id]?) :
    tx'.multicastAt id = tx.multicastAt id := by
  rw [multicastAt, multicastAt, hf, hi]

theorem multicastAt_none {id : Nat} (h : tx.flows id = none) : tx.multicastAt id = none := by
  refine Option.eq_none_iff_forall_ne_some.mpr fun m hm => ?_
  rw [(multicastAt_eq_some_iff.mp hm).2.1] at h
  cases h

/-- Commands that spared multicast flows still do, as long as new ones have
new flags. -/
theorem Spares.later {tx' : FlowsTransmitter} (hn : tx.nextFlag ≤ tx'.nextFlag)
    (hm : ∀ id m, tx'.multicastAt id = some m →
      tx.multicastAt id = some m ∨ tx.nextFlag ≤ m.2.expired)
    (p : Nat → Option Flag) (c : TxCommand) (h : tx.Spares p c) : tx'.Spares p c := by
  cases c with
  | setChannels index chs =>
      obtain ⟨f, hp, hlt, hne⟩ := h
      refine ⟨f, hp, Nat.lt_of_lt_of_le hlt hn, fun id m hid => ?_⟩
      rcases hm id m hid with hold | hnew
      · exact hne id m hold
      · exact Nat.ne_of_gt (Nat.lt_of_lt_of_le hlt hnew)
  | _ => trivial

/-- What a call for unicast flows, or the thread, leaves as it was. -/
structure Keeps (slots : List (Option Flow)) (tx tx' : FlowsTransmitter) : Prop where
  lanes : tx'.Lanes slots
  multicast : ∀ id, tx'.multicastAt id = tx.multicastAt id
  flags : ∀ f, f < tx.nextFlag → tx'.flags f = tx.flags f
  nextFlag : tx.nextFlag ≤ tx'.nextFlag

theorem Keeps.refl (h : tx.Lanes slots) : Keeps slots tx tx :=
  ⟨h, fun _ => rfl, fun _ _ => rfl, Nat.le_refl _⟩

theorem Keeps.trans {tx₁ tx₂ : FlowsTransmitter} (h₁ : Keeps slots tx tx₁)
    (h₂ : Keeps slots tx₁ tx₂) : Keeps slots tx tx₂ :=
  ⟨h₂.lanes, fun id => (h₂.multicast id).trans (h₁.multicast id),
    fun f hf => (h₂.flags f (Nat.lt_of_lt_of_le hf h₁.nextFlag)).trans (h₁.flags f hf),
    Nat.le_trans h₁.nextFlag h₂.nextFlag⟩

/-- The fields these are about. -/
theorem Lanes.same {tx' : FlowsTransmitter} (h : tx.Lanes slots) (hf : tx'.flows = tx.flows)
    (hi : tx'.flowsInfo = tx.flowsInfo) (hc : tx'.commands = tx.commands)
    (hg : tx'.receiverGone = tx.receiverGone) (hn : tx'.nextFlag = tx.nextFlag)
    (hb : tx'.flags = tx.flags) : Keeps slots tx tx' := by
  have hm : ∀ id, tx'.multicastAt id = tx.multicastAt id :=
    fun id => multicastAt_congr (by rw [hf]) (by rw [hi])
  refine ⟨⟨?_, ?_, fun hopen => ?_, fun hopen => ?_⟩, hm, fun f _ => by rw [hb], by rw [hn]⟩
  · rw [hf, hn]
    exact h.flag
  · rw [hf]
    exact h.apart
  · rw [hg] at hopen
    rw [hc]
    exact (h.queue hopen).mono (Spares.later (by rw [hn]) fun id m hid => Or.inl (hm id ▸ hid))
  · rw [hg] at hopen
    rw [hc, hf]
    exact h.drained hopen

theorem saveState_nextFlag (tx : FlowsTransmitter) : tx.saveState.nextFlag = tx.nextFlag := by
  simp only [saveState]
  split <;> rfl

theorem Lanes.saveState (h : tx.Lanes slots) : Keeps slots tx tx.saveState := by
  obtain ⟨h1, _, h3, h4, h5, h6⟩ := tx.saveState_fields
  exact h.same h1 h3 h4 h5 tx.saveState_nextFlag h6

/-! ## Removing -/

theorem removeLeaves_flags (h : tx.Tables) {id : Nat} {flow : FlowData}
    (hid : tx.flows id = some flow) : (tx.removeLeaves id).flags = tx.flags ∧
      (tx.removeLeaves id).nextFlag = tx.nextFlag := by
  unfold removeLeaves
  cases hopen : tx.receiverGone with
  | false =>
      rw [removeFlowInternal_eq h hopen hid]
      exact ⟨rfl, rfl⟩
  | true =>
      rw [removeFlowInternal_gone h hopen hid, forget_eq hid]
      exact ⟨rfl, rfl⟩

/-- Removing a flow: no other multicast flow is touched. -/
theorem Lanes.removeLeaves (h : tx.Lanes slots) (ht : tx.Tables) {id : Nat} {flow : FlowData}
    (hid : tx.flows id = some flow) : (tx.removeLeaves id).Lanes slots ∧
      (tx.removeLeaves id).multicastAt = Function.update tx.multicastAt id none := by
  obtain ⟨hf, _, hi, hg, hc⟩ := removeLeaves_fields ht hid
  obtain ⟨_, hn⟩ := removeLeaves_flags ht hid
  have hm : (tx.removeLeaves id).multicastAt = Function.update tx.multicastAt id none := by
    funext id'
    by_cases hne : id' = id
    · rw [hne, Function.update_self]
      exact multicastAt_none (by rw [hf, Function.update_self])
    · rw [Function.update_of_ne hne]
      exact multicastAt_congr (by rw [hf, Function.update_of_ne hne])
        (by rw [hi, List.getElem?_set_ne (Ne.symm hne)])
  have hold : ∀ id' flow', (tx.removeLeaves id).flows id' = some flow' →
      tx.flows id' = some flow' := by
    intro id' flow' hflow'
    rw [hf] at hflow'
    by_cases hne : id' = id
    · rw [hne, Function.update_self] at hflow'
      cases hflow'
    · rwa [Function.update_of_ne hne] at hflow'
  refine ⟨⟨fun id' flow' hflow' => ?_, fun id₁ id₂ flow₁ flow₂ h₁ h₂ => ?_, fun hopen => ?_,
    fun hopen id' => ?_⟩, hm⟩
  · rw [hn]
    exact h.flag id' flow' (hold id' flow' hflow')
  · exact h.apart id₁ id₂ flow₁ flow₂ (hold id₁ flow₁ h₁) (hold id₂ flow₂ h₂)
  · rw [hg] at hopen
    rw [hc hopen]
    refine Outbox.Accepted.snoc ((h.queue hopen).mono (Spares.later (by rw [hn]) ?_)) trivial
    intro id' m hm'
    rw [hm] at hm'
    by_cases hne : id' = id
    · rw [hne, Function.update_self] at hm'
      cases hm'
    · rw [Function.update_of_ne hne] at hm'
      exact Or.inl hm'
  · rw [hg] at hopen
    rw [hc hopen, Outbox.drained_snoc, hf]
    by_cases hne : id' = id
    · rw [hne, Function.update_self, flagsAfter, Function.update_self]
      rfl
    · rw [Function.update_of_ne hne, flagsAfter, Function.update_of_ne hne, h.drained hopen id']

/-- Removing one that is not a multicast flow. -/
theorem Lanes.removeLeaves_keeps (h : tx.Lanes slots) (ht : tx.Tables) {id : Nat} {flow : FlowData}
    (hid : tx.flows id = some flow) (hnot : tx.multicastAt id = none) :
    Keeps slots tx (tx.removeLeaves id) := by
  obtain ⟨hlanes, hm⟩ := h.removeLeaves ht hid
  obtain ⟨hb, hn⟩ := removeLeaves_flags ht hid
  refine ⟨hlanes, fun id' => ?_, fun f _ => by rw [hb], by rw [hn]⟩
  rw [hm]
  by_cases hne : id' = id
  · rw [hne, Function.update_self, hnot]
  · rw [Function.update_of_ne hne]

/-- The expiry scan removes no multicast flow. -/
theorem isExpired_not_multicast {id : Nat} (h : tx.isExpired id = some true) :
    tx.multicastAt id = none := by
  unfold isExpired at h
  split at h
  · cases h
  · split at h
    · split at h
      · next info hinfo =>
          refine Option.eq_none_iff_forall_ne_some.mpr fun m hm => ?_
          obtain ⟨hinfo', _, hmc⟩ := multicastAt_eq_some_iff.mp hm
          rw [hinfo] at hinfo'
          cases hinfo'
          rw [hmc] at h
          cases h
      · cases h
    · cases h

theorem Lanes.removeAllLeaves (h : tx.Lanes slots) (ht : tx.Together slots) {ids : List Nat}
    (hnodup : ids.Nodup) (hlive : ∀ id ∈ ids, (tx.flows id).isSome)
    (hnot : ∀ id ∈ ids, tx.multicastAt id = none) : Keeps slots tx (tx.removeAllLeaves ids) := by
  induction ids generalizing tx with
  | nil => exact Keeps.refl h
  | cons id ids ih =>
      obtain ⟨flow, hflow⟩ := Option.isSome_iff_exists.mp (hlive id List.mem_cons_self)
      obtain ⟨hid, hnodup⟩ := List.nodup_cons.mp hnodup
      obtain ⟨hf, _⟩ := removeLeaves_fields ht.tables hflow
      have h₁ := h.removeLeaves_keeps ht.tables hflow (hnot id List.mem_cons_self)
      rw [FlowsTransmitter.removeAllLeaves]
      cases hrun : tx.removeFlowInternal id with
      | none => exact h₁
      | some tx₁ =>
          have ht₁ := ht.removeLeaves hflow
          rw [removeLeaves_of_some hrun] at hf h₁ ht₁
          refine h₁.trans (ih h₁.lanes ht₁ hnodup (fun id' hid' => ?_) fun id' hid' => ?_)
          · have hne : id' ≠ id := fun heq => hid (heq ▸ hid')
            rw [hf, Function.update_of_ne hne]
            exact hlive id' (List.mem_cons_of_mem _ hid')
          · rw [h₁.multicast id']
            exact hnot id' (List.mem_cons_of_mem _ hid')

theorem Lanes.scanLeaves (h : tx.Lanes slots) (ht : tx.Together slots) :
    Keeps slots tx tx.scanLeaves := by
  obtain ⟨ids, hids, hsub, hlive⟩ := ht.tables.expiredIds (List.range MAX_FLOWS)
  rw [FlowsTransmitter.scanLeaves, hids]
  refine h.removeAllLeaves ht (hsub.nodup List.nodup_range) hlive fun id hid => ?_
  exact isExpired_not_multicast ((expiredIds_mem hids id).mp hid).2

/-! ## Adding -/

/-- The tables with a flow at a free id. -/
def inserted (tx : FlowsTransmitter) (info : FlowInfo) (fpp bytesPerSample : Nat)
    (isMulticast : Bool) (cookie : BitVec 16) (id : Nat) : FlowsTransmitter :=
  { tx with
    flows := Function.update tx.flows id (some ⟨cookie, info.dst, tx.nextFlag⟩)
    ipPortToId := Function.update tx.ipPortToId info.dst (some id)
    flowsInfo := tx.flowsInfo.set id (some info)
    commands := tx.commands ++ [.addFlow id info.dst info.localChannelIndices fpp bytesPerSample
      (!isMulticast) tx.nextFlag]
    flags := Function.update tx.flags tx.nextFlag isMulticast
    nextFlag := tx.nextFlag + 1 }

theorem insertFlow_eq (hopen : tx.receiverGone = false) {id : Nat} (hlt : id < tx.flowsInfo.length)
    (info : FlowInfo) (fpp bytesPerSample : Nat) (isMulticast : Bool) (cookie : BitVec 16) :
    tx.insertFlow info fpp bytesPerSample isMulticast cookie id =
      ((tx.inserted info fpp bytesPerSample isMulticast cookie id).saveState,
        .ok (id, makeHandle id cookie)) := by
  rw [FlowsTransmitter.insertFlow, if_neg (by rw [hopen]; exact Bool.false_ne_true)]
  dsimp only
  rw [register_eq (by exact hlt)]
  rfl

theorem multicastAt_inserted {id : Nat} (hlt : id < tx.flowsInfo.length) (info : FlowInfo)
    (fpp bytesPerSample : Nat) (isMulticast : Bool) (cookie : BitVec 16) :
    (tx.inserted info fpp bytesPerSample isMulticast cookie id).multicastAt =
      Function.update tx.multicastAt id
        (if info.isMulticast then some (info, ⟨cookie, info.dst, tx.nextFlag⟩) else none) := by
  funext id'
  by_cases hne : id' = id
  · rw [hne, Function.update_self, multicastAt]
    simp only [inserted, List.getElem?_set_self hlt, Function.update_self]
  · rw [Function.update_of_ne hne]
    exact multicastAt_congr (Function.update_of_ne hne _ _) (List.getElem?_set_ne (Ne.symm hne))

/-- A flow goes in at a free id, with a flag of its own. -/
theorem Lanes.inserted (h : tx.Lanes slots) {id : Nat} (hlt : id < tx.flowsInfo.length)
    (info : FlowInfo) (fpp bytesPerSample : Nat) (isMulticast : Bool) (cookie : BitVec 16) :
    (tx.inserted info fpp bytesPerSample isMulticast cookie id).Lanes slots := by
  have hflow : ∀ id' flow',
      (tx.inserted info fpp bytesPerSample isMulticast cookie id).flows id' = some flow' →
      id' = id ∧ flow'.expired = tx.nextFlag ∨ id' ≠ id ∧ tx.flows id' = some flow' := by
    intro id' flow' hflow'
    rw [FlowsTransmitter.inserted] at hflow'
    dsimp only at hflow'
    by_cases hne : id' = id
    · rw [hne, Function.update_self] at hflow'
      cases hflow'
      exact Or.inl ⟨hne, rfl⟩
    · rw [Function.update_of_ne hne] at hflow'
      exact Or.inr ⟨hne, hflow'⟩
  refine ⟨fun id' flow' hflow' => ?_, fun id₁ id₂ flow₁ flow₂ h₁ h₂ heq => ?_, fun hopen => ?_,
    fun hopen id' => ?_⟩
  · rcases hflow id' flow' hflow' with ⟨_, hnew⟩ | ⟨_, hold⟩
    · rw [hnew]
      exact Nat.lt_succ_self _
    · exact Nat.lt_succ_of_lt (h.flag id' flow' hold)
  · rcases hflow id₁ flow₁ h₁ with ⟨rfl, hnew₁⟩ | ⟨_, hold₁⟩ <;>
      rcases hflow id₂ flow₂ h₂ with ⟨rfl, hnew₂⟩ | ⟨_, hold₂⟩
    · rfl
    · have hlt₂ := h.flag id₂ flow₂ hold₂
      rw [← heq, hnew₁] at hlt₂
      exact absurd hlt₂ (Nat.lt_irrefl _)
    · have hlt₁ := h.flag id₁ flow₁ hold₁
      rw [heq, hnew₂] at hlt₁
      exact absurd hlt₁ (Nat.lt_irrefl _)
    · exact h.apart id₁ id₂ flow₁ flow₂ hold₁ hold₂ heq
  · refine Outbox.Accepted.snoc ((h.queue hopen).mono (Spares.later (Nat.le_succ _) ?_)) trivial
    intro id' m hm
    rw [multicastAt_inserted hlt] at hm
    by_cases hne : id' = id
    · rw [hne, Function.update_self] at hm
      split at hm
      · cases hm
        exact Or.inr (Nat.le_refl _)
      · cases hm
    · rw [Function.update_of_ne hne] at hm
      exact Or.inl hm
  · have hdrained := h.drained hopen id'
    rw [FlowsTransmitter.inserted]
    dsimp only
    rw [Outbox.drained_snoc, flagsAfter]
    by_cases hne : id' = id
    · rw [hne, Function.update_self, Function.update_self]
      rfl
    · rw [Function.update_of_ne hne, Function.update_of_ne hne, hdrained]

/-- A unicast flow at a free id. -/
theorem Lanes.insertFlow_keeps (h : tx.Lanes slots) (ht : tx.Tables) {info : FlowInfo}
    (hnot : info.isMulticast = false) {id : Nat} (hlt : id < MAX_FLOWS)
    (hfree : tx.flows id = none) (fpp bytesPerSample : Nat) (isMulticast : Bool)
    (cookie : BitVec 16) :
    Keeps slots tx (tx.insertFlow info fpp bytesPerSample isMulticast cookie id).1 := by
  cases hopen : tx.receiverGone with
  | true =>
      rw [FlowsTransmitter.insertFlow, if_pos hopen]
      exact Keeps.refl h
  | false =>
      have hlen : id < tx.flowsInfo.length := ht.length ▸ hlt
      rw [insertFlow_eq hopen hlen]
      have hins := h.inserted hlen info fpp bytesPerSample isMulticast cookie
      refine Keeps.trans ⟨hins, fun id' => ?_, fun f hf => ?_, Nat.le_succ _⟩ hins.saveState
      · rw [multicastAt_inserted hlen, hnot]
        by_cases hne : id' = id
        · rw [hne, Function.update_self, multicastAt_none hfree]
          rfl
        · rw [Function.update_of_ne hne]
      · exact Function.update_of_ne (Nat.ne_of_lt hf) _ _

/-- Channels of a live unicast flow are told to the thread and noted down. -/
theorem Lanes.setInfo_keeps (h : tx.Lanes slots) (ht : tx.Tables) {id : Nat}
    {flow : FlowData} (hid : tx.flows id = some flow) (hspared : tx.multicastAt id = none)
    {info : FlowInfo} (hnot : info.isMulticast = false) (chs : List (Option Nat)) :
    Keeps slots tx { tx with
      commands := tx.commands ++ [.setChannels id chs]
      flowsInfo := tx.flowsInfo.set id (some info) } := by
  have hlen := ht.length ▸ ht.lt hid
  have hm : ∀ id', multicastAt { tx with
      commands := tx.commands ++ [.setChannels id chs]
      flowsInfo := tx.flowsInfo.set id (some info) } id' = tx.multicastAt id' := by
    intro id'
    by_cases hne : id' = id
    · rw [hne, hspared, multicastAt]
      simp only [List.getElem?_set_self hlen, hid, hnot, Bool.false_eq_true, if_false]
    · exact multicastAt_congr rfl (List.getElem?_set_ne (Ne.symm hne))
  refine ⟨⟨h.flag, h.apart, fun hopen => ?_, fun hopen id' => ?_⟩, hm, fun _ _ => rfl,
    Nat.le_refl _⟩
  · refine Outbox.Accepted.snoc ((h.queue hopen).mono
      (Spares.later (Nat.le_refl _) fun id' m hm' => Or.inl (hm id' ▸ hm'))) ?_
    have hdrained := h.drained hopen id
    rw [hid] at hdrained
    refine ⟨flow.expired, hdrained, h.flag id flow hid, fun id' m hm' heq => ?_⟩
    rw [hm id'] at hm'
    obtain ⟨_, hflow', _⟩ := multicastAt_eq_some_iff.mp hm'
    rw [h.apart id' id m.2 flow hflow' hid heq, hspared] at hm'
    cases hm'
  · have hdrained := h.drained hopen id'
    dsimp only
    rw [Outbox.drained_snoc, flagsAfter]
    · exact hdrained
    all_goals nofun

/-! ## Calls that keep off multicast flows -/

/-- A call for unicast flows that meets no multicast flow: neither the
destination nor the handle is that of one. -/
def SparesCall (tx : FlowsTransmitter) : TxCall → Prop
  | .addFlow info _ _ _ _ _ => info.isMulticast = false ∧
      ∀ id, tx.ipPortToId info.dst = some id → tx.multicastAt id = none
  | .removeFlow handle => ∀ id flow, tx.getFlow handle = some (id, flow) → tx.multicastAt id = none
  | .setChannels handle _ =>
      ∀ id flow, tx.getFlow handle = some (id, flow) → tx.multicastAt id = none
  | _ => False

theorem Lanes.added_keeps (h : tx.Lanes slots) (ht : tx.Together slots) {info : FlowInfo}
    (hnot : info.isMulticast = false)
    (hspared : ∀ id, tx.ipPortToId info.dst = some id → tx.multicastAt id = none)
    {fpp bytesPerSample : Nat} {isMulticast : Bool} {cookie : BitVec 16} {tx' : FlowsTransmitter}
    (hadded : tx.Added info fpp bytesPerSample isMulticast cookie tx') : Keeps slots tx tx' := by
  cases hadded with
  | untold => exact Keeps.refl h
  | @told id flow hip hopen hflow hdst =>
      have hset := h.setInfo_keeps ht.tables hflow (hspared id hip) hnot info.localChannelIndices
      exact hset.trans hset.lanes.saveState
  | scanned n hip =>
      have h₁ := h.scanLeaves ht
      exact h₁.trans (h₁.lanes.same rfl rfl rfl rfl rfl rfl)
  | inserted n hip hfree hlt =>
      have h₁ := h.scanLeaves ht
      obtain ⟨ht₁, _⟩ := ht.scanLeaves
      have h₂ : Keeps slots tx { tx.scanLeaves with flowSeqId := n } :=
        h₁.trans (h₁.lanes.same rfl rfl rfl rfl rfl rfl)
      have ht₂ : Together slots { tx.scanLeaves with flowSeqId := n } :=
        ht₁.congr rfl rfl rfl rfl rfl
      rw [ht₁.tables.length, or_self] at hlt
      exact h₂.trans (h₂.lanes.insertFlow_keeps ht₂.tables hnot hlt hfree fpp bytesPerSample
        isMulticast cookie)

theorem Lanes.removed_keeps (h : tx.Lanes slots) (ht : tx.Tables) {id : Nat} {flow : FlowData}
    (hid : tx.flows id = some flow) (hnone : tx.multicastAt id = none) {tx' : FlowsTransmitter}
    (hremoved : tx.Removed id tx') : Keeps slots tx tx' := by
  have h₁ := h.removeLeaves_keeps ht hid hnone
  cases hremoved with
  | unsaved => exact h₁
  | saved => exact h₁.trans h₁.lanes.saveState

theorem Lanes.call_keeps (h : tx.Lanes slots) (ht : tx.Together slots) {c : TxCall}
    (hspared : tx.SparesCall c) : Keeps slots tx (c.leaves tx) := by
  cases c with
  | addFlow info fpp bytesPerSample requested isMulticast env =>
      exact h.added_keeps ht hspared.1 hspared.2
        (added_of_addFlow ht.tables info fpp bytesPerSample requested isMulticast env)
  | removeFlow handle =>
      rcases tx.removed_of_removeFlow handle with heq | ⟨id, flow, hget, hremoved⟩
      · rw [heq]
        exact Keeps.refl h
      · exact h.removed_keeps ht.tables (getFlow_flows hget) (hspared _ _ hget) hremoved
  | setChannels handle chs =>
      rcases setChannels_leaves ht.tables handle chs with
        heq | ⟨id, flow, info, hopen, hget, hinfo, heq⟩
      · rw [heq]
        exact Keeps.refl h
      · have hflow := getFlow_flows hget
        have hnone := hspared _ _ hget
        have hnot : info.isMulticast = false := by
          cases hmc : info.isMulticast with
          | false => rfl
          | true =>
              rw [multicastAt_eq_some_iff.mpr ⟨hinfo, hflow, hmc⟩] at hnone
              cases hnone
        rw [heq]
        exact @Lanes.setInfo_keeps slots tx h ht.tables id flow hflow hnone
          { info with localChannelIndices := chs } hnot chs
  | removeMulticastFlow index => exact hspared.elim
  | activateMulticastFlow flowIndex => exact hspared.elim

/-! ## Multicast flows -/

/-- A bundle's flow can be added at an index: the thread is there to be told,
the destination is new, and the index is free or will be after the scan. -/
structure CanAddAt (tx : FlowsTransmitter) (dst : SocketAddr) (id : Nat) (env : AddFlowEnv) :
    Prop where
  receiver : tx.receiverGone = false
  socket : env.socketOk = true
  dst : tx.ipPortToId dst = none
  index : tx.flows id = none ∨ tx.isExpired id = some true

theorem scanExpired_frees (h : tx.Tables) (hopen : tx.receiverGone = false) {id : Nat}
    (hindex : tx.flows id = none ∨ tx.isExpired id = some true) :
    ∃ tx', tx.scanExpired = some tx' ∧ tx'.flows id = none ∧ tx'.receiverGone = false := by
  obtain ⟨ids, hids, hsub, hlive⟩ := h.expiredIds (List.range MAX_FLOWS)
  obtain ⟨tx', hrun, hf, _, _, hg, _⟩ :=
    removeAll_fields h hopen (hsub.nodup List.nodup_range) hlive
  refine ⟨tx', ?_, ?_, hg⟩
  · rw [FlowsTransmitter.scanExpired, hids]
    exact hrun
  · rw [hf id]
    split
    · rfl
    · next hid =>
        refine hindex.resolve_right fun hexpired => hid ?_
        obtain ⟨flow, hflow⟩ := Option.isSome_iff_exists.mp (isExpired_live hexpired)
        exact (expiredIds_mem hids id).mpr ⟨List.mem_range.mpr (h.lt hflow), hexpired⟩

/-- A multicast flow is added, silent. -/
theorem Lanes.addMulticast (h : tx.Lanes slots) (ht : tx.Together slots) {info : FlowInfo}
    (hmc : info.isMulticast = true) {id : Nat} (hlt : id < MAX_FLOWS) {env : AddFlowEnv}
    (hcan : tx.CanAddAt info.dst id env) (fpp bytesPerSample : Nat) :
    ∃ tx' flow r, tx.addFlow info fpp bytesPerSample (some id) true env = some (tx', .ok r) ∧
      tx'.Lanes slots ∧ tx'.multicastAt = Function.update tx.multicastAt id (some (info, flow)) ∧
      tx'.flags flow.expired = true ∧ (∀ f, f < tx.nextFlag → tx'.flags f = tx.flags f) ∧
      tx'.receiverGone = false := by
  obtain ⟨hopen, hsocket, hdst, hindex⟩ := hcan
  obtain ⟨tx₁, hscan, hfree, hopen₁⟩ := scanExpired_frees ht.tables hopen hindex
  have h₁ := h.scanLeaves ht
  obtain ⟨ht₁, _⟩ := ht.scanLeaves
  rw [scanLeaves_of_some hscan] at h₁ ht₁
  have hlen : id < tx₁.flowsInfo.length := ht₁.tables.length ▸ hlt
  have hinfo : tx₁.flowsInfo[id]? = some none := by
    rcases hi : tx₁.flowsInfo[id]? with _ | _ | i
    · exact absurd (List.getElem?_eq_none_iff.mp hi) (Nat.not_le.mpr hlen)
    · rfl
    · have hlive := ht₁.tables.live id i hi
      rw [hfree] at hlive
      cases hlive
  have hchoose : FlowsTransmitter.chooseIndex (some id) (MAX_FLOWS + 1) tx₁ =
      some (tx₁, .ok id) := by
    rw [FlowsTransmitter.chooseIndex, hfree]
    simp only [hinfo, Option.isSome_none, Bool.false_eq_true, if_false]
  have hins := h₁.lanes.inserted hlen info fpp bytesPerSample true env.cookie
  have hsave := hins.saveState
  refine ⟨_, ⟨env.cookie, info.dst, tx₁.nextFlag⟩, (id, makeHandle id env.cookie), ?_, hsave.lanes,
    ?_, ?_, fun f hf => ?_, ?_⟩
  · unfold FlowsTransmitter.addFlow
    simp only [hdst, hscan, hchoose, hsocket, if_true, Option.bind_eq_bind, Option.bind_some]
    rw [insertFlow_eq hopen₁ hlen]
  · funext id'
    rw [hsave.multicast id', multicastAt_inserted hlen, if_pos hmc]
    by_cases hne : id' = id
    · rw [hne, Function.update_self, Function.update_self]
    · rw [Function.update_of_ne hne, Function.update_of_ne hne, h₁.multicast id']
  · rw [hsave.flags _ (Nat.lt_succ_self _)]
    exact Function.update_self _ _ _
  · have hf₁ : f < tx₁.nextFlag := Nat.lt_of_lt_of_le hf h₁.nextFlag
    rw [hsave.flags f (Nat.lt_succ_of_lt hf₁), ← h₁.flags f hf]
    exact Function.update_of_ne (Nat.ne_of_lt hf₁) _ _
  · rw [(saveState_fields _).2.2.2.2.1]
    exact hopen₁

/-- A multicast flow is removed. -/
theorem Lanes.removeMulticast (h : tx.Lanes slots) (ht : tx.Tables)
    (hopen : tx.receiverGone = false) {id : Nat} {m : FlowInfo × FlowData}
    (hm : tx.multicastAt id = some m) :
    ∃ tx', tx.removeMulticastFlow id = some (tx', .ok ()) ∧ tx'.Lanes slots ∧
      tx'.multicastAt = Function.update tx.multicastAt id none ∧ tx'.flags = tx.flags ∧
      tx'.receiverGone = false ∧ tx'.flows id = none := by
  obtain ⟨hinfo, hflow, hmc⟩ := multicastAt_eq_some_iff.mp hm
  have hrun := removeFlowInternal_eq ht hopen hflow
  obtain ⟨hlanes, hmulticast⟩ := h.removeLeaves ht hflow
  rw [removeLeaves_of_some hrun] at hlanes hmulticast
  have hsave := hlanes.saveState
  obtain ⟨hf, _, _, _, hg, hb⟩ := saveState_fields { tx with
      flows := Function.update tx.flows id none
      ipPortToId := Function.update tx.ipPortToId m.2.remote none
      flowsInfo := tx.flowsInfo.set id none
      commands := tx.commands ++ [.removeFlow id] }
  refine ⟨_, ?_, hsave.lanes, ?_, hb, hg.trans hopen, ?_⟩
  · unfold FlowsTransmitter.removeMulticastFlow
    simp only [hinfo, hmc, if_true, hrun, Option.bind_eq_bind, Option.bind_some]
  · funext id'
    rw [hsave.multicast id', hmulticast]
  · rw [hf]
    exact Function.update_self _ _ _

/-- A multicast flow is activated, and no other. -/
theorem Lanes.activateMulticast (h : tx.Lanes slots) {id : Nat} {m : FlowInfo × FlowData}
    (hm : tx.multicastAt id = some m) :
    ∃ tx', tx.activateMulticastFlow id = some tx' ∧ tx'.Lanes slots ∧
      tx'.multicastAt = tx.multicastAt ∧ tx'.receiverGone = tx.receiverGone ∧
      ∀ id' m', id' ≠ id → tx.multicastAt id' = some m' →
        tx'.flags m'.2.expired = tx.flags m'.2.expired := by
  obtain ⟨_, hflow, _⟩ := multicastAt_eq_some_iff.mp hm
  refine ⟨{ tx with flags := Function.update tx.flags m.2.expired false }, ?_,
    ⟨h.flag, h.apart, fun hopen => ?_, h.drained⟩, rfl, rfl, fun id' m' hne hm' => ?_⟩
  · rw [FlowsTransmitter.activateMulticastFlow, hflow]
    rfl
  · exact (h.queue hopen).mono (Spares.later (Nat.le_refl _) fun _ _ hm => Or.inl hm)
  · obtain ⟨_, hflow', _⟩ := multicastAt_eq_some_iff.mp hm'
    exact Function.update_of_ne (fun heq => hne (h.apart id' id _ _ hflow' hflow heq)) _ _

theorem start_lanes (flags : Flag → Bool) :
    (start flags).Lanes (List.replicate MAX_FLOWS none) where
  flag := nofun
  apart := nofun
  queue := fun _ => trivial
  drained := fun _ id => by
    show slotFlag (List.replicate MAX_FLOWS none) id = none
    rw [slotFlag]
    rcases lt_or_ge id MAX_FLOWS with hlt | hge
    · rw [List.getElem?_replicate_of_lt hlt]
      rfl
    · rw [List.getElem?_eq_none (by rw [List.length_replicate]; exact hge)]
      rfl

end

end FlowsTransmitter

/-! ## The thread -/

theorem newFlow_flag {sampleRate : BitVec 32} {now : Option Clock} {socket : SocketAddr}
    {chs : List (Option Nat)} {fpp bytesPerSample : Nat} {needsKeepalives : Bool} {flag : Flag}
    {flow : Flow}
    (h : newFlow sampleRate now socket chs fpp bytesPerSample needsKeepalives flag = some flow) :
    flow.expired = flag := by
  unfold newFlow at h
  cases now with
  | none =>
      cases h
      rfl
  | some now =>
      obtain ⟨flow₁, hboot, hend⟩ := Option.bind_eq_some_iff.mp h
      unfold Flow.bootstrapNextTs at hboot
      dsimp only at hboot
      split at hboot
      · cases hboot
      · cases hboot
        split at hend <;> cases hend <;> rfl

theorem changeChannels_flag {sampleRate : BitVec 32} {now : Option Clock} {expired : Bool}
    {chs : List (Option Nat)} {flow flow' : Flow}
    (h : changeChannels sampleRate now expired chs flow = some flow') :
    flow'.expired = flow.expired := by
  unfold changeChannels at h
  cases now with
  | none =>
      cases h
      rfl
  | some now =>
      dsimp only at h
      split at h
      · unfold Flow.bootstrapNextTs at h
        dsimp only at h
        split at h
        · cases h
        · cases h
          rfl
      · cases h
        rfl

theorem slotFlag_set {slots : List (Option Flow)} {index : Nat} (hlt : index < slots.length)
    (o : Option Flow) : slotFlag (slots.set index o) =
      Function.update (slotFlag slots) index (o.map Flow.expired) := by
  funext i
  unfold slotFlag
  by_cases hne : i = index
  · rw [hne, List.getElem?_set_self hlt, Function.update_self]
    rfl
  · rw [List.getElem?_set_ne (Ne.symm hne), Function.update_of_ne hne]

/-- The slots and the flags after a command: one flag may be cleared. -/
theorem handleCommand_flags {sampleRate : BitVec 32} {now : Option Clock}
    {slots slots' : List (Option Flow)} {flags flags' : Flag → Bool} {c : TxCommand}
    (h : handleCommand sampleRate now slots flags c = some (slots', flags')) :
    slotFlag slots' = flagsAfter (slotFlag slots) c ∧
      (flags' = flags ∨ ∃ index chs f, c = .setChannels index chs ∧ slotFlag slots index = some f ∧
        flags' = Function.update flags f false) := by
  cases c with
  | noOp =>
      cases h
      exact ⟨rfl, Or.inl rfl⟩
  | shutdown =>
      cases h
      exact ⟨rfl, Or.inl rfl⟩
  | addFlow index socket chs fpp bytesPerSample needsKeepalives flag =>
      obtain ⟨flow, hnew, hset⟩ := Option.bind_eq_some_iff.mp h
      split at hset
      · next hlt =>
          cases hset
          rw [slotFlag_set hlt, Option.map_some, newFlow_flag hnew]
          exact ⟨rfl, Or.inl rfl⟩
      · cases hset
  | removeFlow index =>
      rw [handleCommand] at h
      split at h
      · next hlt =>
          cases h
          rw [slotFlag_set hlt]
          exact ⟨rfl, Or.inl rfl⟩
      · cases h
  | setChannels index chs =>
      rw [handleCommand] at h
      split at h
      · next flow hget =>
          obtain ⟨flow', hchange, hset⟩ := Option.bind_eq_some_iff.mp h
          cases hset
          have hflag : slotFlag slots index = some flow.expired := by
            rw [slotFlag, hget]
            rfl
          refine ⟨?_, Or.inr ⟨index, chs, flow.expired, rfl, hflag,
            by rw [changeChannels_flag hchange]⟩⟩
          rw [slotFlag_set (List.getElem?_eq_some_iff.mp hget).1, Option.map_some,
            changeChannels_flag hchange, ← hflag]
          exact Function.update_eq_self _ _
      · cases h

namespace TxTables

open FlowsTransmitter

/-- What the thread leaves as it was: it wakes no multicast flow. -/
structure ThreadKeeps (w w' : TxTables) : Prop where
  lanes : w'.tx.Lanes w'.slots
  multicast : ∀ id, w'.tx.multicastAt id = w.tx.multicastAt id
  flags : ∀ id m, w.tx.multicastAt id = some m → w'.tx.flags m.2.expired = false →
    w.tx.flags m.2.expired = false

theorem ThreadKeeps.refl {w : TxTables} (h : w.tx.Lanes w.slots) : ThreadKeeps w w :=
  ⟨h, fun _ => rfl, fun _ _ _ hf => hf⟩

theorem drain_keeps {w : TxTables} (h : w.tx.Lanes w.slots) (hopen : w.tx.receiverGone = false)
    (sampleRate : BitVec 32) (now : Option Clock) : ThreadKeeps w (w.drain sampleRate now) := by
  have hq := h.queue hopen
  have hd := h.drained hopen
  unfold TxTables.drain
  cases hcs : w.tx.commands with
  | nil => exact ThreadKeeps.refl h
  | cons c cs =>
      rw [hcs] at hq hd
      cases hrun : handleCommand sampleRate now w.slots w.tx.flags c with
      | none =>
          simp only [hrun]
          exact ⟨⟨h.flag, h.apart, nofun, nofun⟩, fun _ => rfl, fun _ _ _ hf => hf⟩
      | some r =>
          obtain ⟨slots', flags'⟩ := r
          obtain ⟨hslots, hflags⟩ := handleCommand_flags hrun
          simp only [hrun]
          refine ⟨⟨h.flag, h.apart, fun _ => ?_, fun _ => ?_⟩, fun _ => rfl, fun id m hm hf => ?_⟩
          · dsimp only
            rw [hslots]
            exact hq.2.mono (Spares.later (Nat.le_refl _) fun _ _ hm => Or.inl hm)
          · dsimp only
            rw [hslots]
            exact hd
          · dsimp only at hf
            rcases hflags with rfl | ⟨index, chs, f, rfl, hslot, rfl⟩
            · exact hf
            · obtain ⟨f', hf', _, hne⟩ := hq.1
              rw [hslot] at hf'
              cases hf'
              rwa [Function.update_of_ne (hne id m hm)] at hf

theorem expire_keeps {w : TxTables} (h : w.tx.Lanes w.slots) (slot : Nat) :
    ThreadKeeps w (w.expire slot) := by
  unfold TxTables.expire
  split
  · refine ⟨⟨h.flag, h.apart, fun hopen => ?_, h.drained⟩, fun _ => rfl, fun _ m _ hf => ?_⟩
    · exact (h.queue hopen).mono (Spares.later (Nat.le_refl _) fun _ _ hm => Or.inl hm)
    · dsimp only at hf
      by_cases heq : m.2.expired = (by assumption : Flow).expired
      · rw [heq, Function.update_self] at hf
        cases hf
      · rwa [Function.update_of_ne heq] at hf
  · exact ThreadKeeps.refl h

end TxTables

end Inferno
