import Inferno.MulticastMap
import Inferno.TxFlags

/-!
# Bundles and their flows

Every step that creates, deletes, retries or activates a bundle, in any order
and with unicast calls and the transmitting thread in between. A bundle that is
advertised, entered in the map or whose flow is awake stays in the table and
behind it stays its flow, and no step panics, as long as every step is
`Careful`: the flow of a new bundle can be added, its channels exist, no bundle
is deleted while its task waits, and unicast calls keep off the flows of
bundles (`bundles_survive`).
-/

namespace Inferno

namespace TransmitMulticasts

open FlowsTransmitter

/-- `flows_tx` holds the flow of the bundle at an index, with the bundle's
destination and channels. -/
def Carried (w : TransmitMulticasts) (i : Nat) : Prop :=
  ∃ bundle t info flow, w.bundles[i]? = some (some bundle) ∧ w.flowsTx = some t ∧
    t.tx.multicastAt i = some (info, flow) ∧
    info.localChannelIndices = bundle.localChannelIndices ∧
    info.dstAddr = w.dstAddrs bundle.dstAddr

/-- The multicast flow at an index is awake. -/
def FlowActivated (w : TransmitMulticasts) (i : Nat) : Prop :=
  ∃ t info flow, w.flowsTx = some t ∧ t.tx.multicastAt i = some (info, flow) ∧
    t.tx.flags flow.expired = false

/-- No step has panicked; what is advertised, entered or awake is a bundle of
the table with its flow; and what waits to be activated has not been deleted. -/
structure Survive (w : TransmitMulticasts) : Prop where
  noPanic : w.panicked = false
  advertised : ∀ i s, w.services (i + 1) = some s → w.Carried i
  entered : ∀ i c p, w.multicastsByChannel c = some p → p.bundleId = i + 1 → w.Carried i
  activated : ∀ i, w.FlowActivated i → w.Carried i
  waiting : ∀ task ∈ w.tasks, ∃ bundle, w.bundles[task.flowIndex]? = some (some bundle) ∧
    bundle.dstAddr = task.dstAddrArc

/-! ## Careful steps -/

/-- A bundle can be created: its flow can be added, and its channels exist. -/
structure CanCreate (dev : MulticastDevice) (w : TransmitMulticasts) (flowIndex : Nat)
    (channelIndices : List (Option Nat)) (preferredAddress : BitVec 32) (draw : MulticastDraw) :
    Prop where
  channels : canRefresh dev channelIndices = true
  receiver : ∀ t, w.flowsTx = some t → t.tx.receiverGone = false
  socket : draw.flow.socketOk = true
  preferred : ∀ t, w.flowsTx = some t → preferredAddress ≠ 0 →
    t.tx.ipPortToId ⟨preferredAddress, MEDIA_PORT⟩ = none
  index : ∀ t, w.flowsTx = some t →
    t.tx.flows flowIndex = none ∨ t.tx.isExpired flowIndex = some true

/-- The steps after which bundles and flows still belong together. -/
def Careful (dev : MulticastDevice) (w : TransmitMulticasts) : MulticastEvent → Prop
  | .load saved draw => w.published = false → saved.flowId ≠ 0 → ∀ i,
      w.loadIndex saved.flowId = some i →
        CanCreate dev w i saved.channelIndices saved.dstAddr draw
  | .create draw => w.published = true → ∀ i channelIndices,
      w.creating = some (i, channelIndices) → CanCreate dev w i channelIndices 0 draw
  | .delete i => w.published = true → w.creating = none → i < MAX_FLOWS ∧
      ∀ bundle, w.bundles[i]? = some (some bundle) →
        (∀ t, w.flowsTx = some t → t.tx.receiverGone = false) ∧
          ∀ task ∈ w.tasks, task.dstAddrArc ≠ bundle.dstAddr
  | .grace k used₁ used₂ draw => ∀ task, w.tasks[k]? = some task →
      used₁ = some false ∧ used₂ = some false ∨
        draw.flow.socketOk = true ∧ ∀ t, w.flowsTx = some t → t.tx.receiverGone = false
  | .unicast c => ∀ t, w.flowsTx = some t → t.tx.SparesCall c.call
  | .shutdown => w.published = false
  | _ => True

/-- Every step of the run is careful in the state it is made in. -/
def CarefulRun (dev : MulticastDevice) (sampleRate : BitVec 32) :
    TransmitMulticasts → List MulticastEvent → Prop
  | _, [] => True
  | w, e :: events => w.Careful dev e ∧ CarefulRun dev sampleRate (w.step dev sampleRate e) events

/-! ## The invariant -/

/-- Bundles, flows and tasks belong together. -/
structure Belong (dev : MulticastDevice) (w : TransmitMulticasts) (tx : FlowsTransmitter) :
    Prop where
  flow : ∀ (i : Nat) (bundle : Bundle), w.bundles[i]? = some (some bundle) →
    ∃ info flow, tx.multicastAt i = some (info, flow) ∧
      info.localChannelIndices = bundle.localChannelIndices ∧
      canRefresh dev bundle.localChannelIndices = true ∧
      (w.dstAddrs bundle.dstAddr ≠ 0 → info.dstAddr = w.dstAddrs bundle.dstAddr) ∧
      (tx.flags flow.expired = false → w.dstAddrs bundle.dstAddr ≠ 0)
  bundle : ∀ i m, tx.multicastAt i = some m → ∃ bundle, w.bundles[i]? = some (some bundle)
  task : ∀ task ∈ w.tasks, w.dstAddrs task.dstAddrArc = 0 ∧ task.dstAddr ≠ 0 ∧
    ∃ bundle info flow, w.bundles[task.flowIndex]? = some (some bundle) ∧
      bundle.dstAddr = task.dstAddrArc ∧
      bundle.localChannelIndices = task.channelIndices ∧
      tx.multicastAt task.flowIndex = some (info, flow) ∧ info.dstAddr = task.dstAddr

/-- Cells tell bundles and tasks apart. -/
structure Apart (w : TransmitMulticasts) : Prop where
  once : (w.tasks.map GraceTask.dstAddrArc).Nodup
  cell : ∀ (i : Nat) (bundle : Bundle), w.bundles[i]? = some (some bundle) →
    bundle.dstAddr < w.nextCell
  cells : ∀ (i j : Nat) (bundle bundle' : Bundle), w.bundles[i]? = some (some bundle) →
    w.bundles[j]? = some (some bundle') → bundle.dstAddr = bundle'.dstAddr → i = j
  fresh : ∀ c, w.nextCell ≤ c → w.dstAddrs c = 0

/-- What is advertised or entered is active. -/
structure Announced (w : TransmitMulticasts) : Prop where
  service : ∀ id s, w.services id = some s → ∃ i bundle, id = i + 1 ∧ w.IsActive i bundle
  entry : ∀ c p, w.multicastsByChannel c = some p → ∃ i bundle, p.bundleId = i + 1 ∧
    w.IsActive i bundle ∧ some c ∈ bundle.localChannelIndices

/-- The tables are those of `t`, and nothing has gone wrong. -/
structure Running (w : TransmitMulticasts) (t : TxTables) : Prop where
  tables : w.flowsTx = some t
  working : w.shouldWork = true
  noPanic : w.panicked = false
  together : t.tx.Together t.slots
  lanes : t.tx.Lanes t.slots
  length : w.bundles.length = MAX_FLOWS
  creating : ∀ i chs, w.creating = some (i, chs) → w.published = true ∧ w.bundles[i]? = some none

structure BundleInv (dev : MulticastDevice) (w : TransmitMulticasts) (t : TxTables) : Prop where
  running : w.Running t
  belong : Belong dev w t.tx
  apart : w.Apart
  announced : w.Announced

section

variable {dev : MulticastDevice} {w : TransmitMulticasts} {t : TxTables}

theorem BundleInv.carried (h : BundleInv dev w t) {i : Nat} {bundle : Bundle}
    (hactive : w.IsActive i bundle) : w.Carried i := by
  obtain ⟨info, flow, hm, hchs, _, hdst, _⟩ := h.belong.flow i bundle hactive.1
  exact ⟨bundle, t, info, flow, hactive.1, h.running.tables, hm, hchs, hdst hactive.2⟩

theorem BundleInv.survive (h : BundleInv dev w t) : w.Survive where
  noPanic := h.running.noPanic
  advertised := fun i s hs => by
    obtain ⟨j, bundle, hid, hactive⟩ := h.announced.service (i + 1) s hs
    cases hid
    exact h.carried hactive
  entered := fun i c p hp hid => by
    obtain ⟨j, bundle, hj, hactive, _⟩ := h.announced.entry c p hp
    rw [hid] at hj
    cases hj
    exact h.carried hactive
  activated := fun i hawake => by
    obtain ⟨t', info, flow, ht', hm, hflag⟩ := hawake
    rw [h.running.tables] at ht'
    cases ht'
    obtain ⟨bundle, hb⟩ := h.belong.bundle i _ hm
    obtain ⟨info', flow', hm', _, _, _, hawake⟩ := h.belong.flow i bundle hb
    rw [hm] at hm'
    cases hm'
    exact h.carried ⟨hb, hawake hflag⟩
  waiting := fun task hmem => by
    obtain ⟨_, _, bundle, _, _, hb, hcell, _⟩ := h.belong.task task hmem
    exact ⟨bundle, hb, hcell⟩

/-- Other tables, with the same multicast flows, none of which was woken. -/
theorem BundleInv.onTables (h : BundleInv dev w t) {t' : TxTables}
    (htogether : t'.tx.Together t'.slots) (hlanes : t'.tx.Lanes t'.slots)
    (hm : ∀ id, t'.tx.multicastAt id = t.tx.multicastAt id)
    (hflags : ∀ id m, t.tx.multicastAt id = some m → t'.tx.flags m.2.expired = false →
      t.tx.flags m.2.expired = false) :
    BundleInv dev { w with flowsTx := some t' } t' := by
  obtain ⟨⟨_, h2, h3, _, _, h4, h5⟩, ⟨b1, b2, b3⟩, ⟨a1, a2, a3, a4⟩, n1, n2⟩ := h
  refine ⟨⟨rfl, h2, h3, htogether, hlanes, h4, h5⟩, ⟨fun i bundle hb => ?_, fun i m hi => ?_,
    fun task hmem => ?_⟩, ⟨a1, a2, a3, a4⟩, n1, n2⟩
  · obtain ⟨info, flow, hi, hchs, hrefresh, hdst, hawake⟩ := b1 i bundle hb
    refine ⟨info, flow, (hm i).trans hi, hchs, hrefresh, hdst, fun hflag => ?_⟩
    exact hawake (hflags i _ hi hflag)
  · rw [hm i] at hi
    exact b2 i m hi
  · obtain ⟨hzero, hne, bundle, info, flow, hb, hcell, hchs, hi, hdst⟩ := b3 task hmem
    exact ⟨hzero, hne, bundle, info, flow, hb, hcell, hchs, (hm _).trans hi, hdst⟩

/-- A bundle with its silent flow enters a free place, and its task waits. -/
theorem BundleInv.insertBundle (h : BundleInv dev w t) {i : Nat}
    (hfree : w.bundles[i]? = some none) {chs : List (Option Nat)}
    (hchs : canRefresh dev chs = true) {dstAddr : BitVec 32} (hne : dstAddr ≠ 0)
    (dstPort : BitVec 16) {t' : TxTables} (htogether : t'.tx.Together t'.slots)
    (hlanes : t'.tx.Lanes t'.slots) {flow : FlowData}
    (hm : t'.tx.multicastAt =
      Function.update t.tx.multicastAt i (some (flowInfo dstAddr dstPort chs, flow)))
    (hsilent : t'.tx.flags flow.expired = true)
    (hflags : ∀ f, f < t.tx.nextFlag → t'.tx.flags f = t.tx.flags f) (hcreating : w.creating = none) :
    BundleInv dev ({ w with flowsTx := some t' }.insertBundle i chs dstAddr dstPort) t' := by
  have hlanes₀ := h.running.lanes
  obtain ⟨⟨_, h2, h3, _, _, h4, h5⟩, ⟨b1, b2, b3⟩, ⟨a1, a2, a3, a4⟩, n1, n2⟩ := h
  have hlt : i < w.bundles.length := (List.getElem?_eq_some_iff.mp hfree).1
  have hself : (w.bundles.set i (some ⟨chs, w.nextCell⟩))[i]? = some (some ⟨chs, w.nextCell⟩) :=
    List.getElem?_set_self hlt
  have hother : ∀ {j : Nat} {bundle : Bundle}, w.bundles[j]? = some (some bundle) → j ≠ i ∧
      (w.bundles.set i (some ⟨chs, w.nextCell⟩))[j]? = some (some bundle) := by
    intro j bundle hj
    have hji : j ≠ i := by
      rintro rfl
      rw [hfree] at hj
      cases hj
    exact ⟨hji, (List.getElem?_set_ne (Ne.symm hji)).trans hj⟩
  have hzero : w.dstAddrs w.nextCell = 0 := a4 _ (Nat.le_refl _)
  unfold TransmitMulticasts.insertBundle
  rw [if_neg hne]
  refine ⟨⟨rfl, h2, h3, htogether, hlanes, ?_, ?_⟩, ⟨fun j bundle hj => ?_, fun j m hj => ?_,
    fun task hmem => ?_⟩, ⟨?_, fun j bundle hj => ?_, fun j k bundle bundle' hj hk heq => ?_,
    fun c hc => a4 c (Nat.le_of_succ_le hc)⟩, fun id s hs => ?_, fun c p hp => ?_⟩
  · exact (List.length_set).trans h4
  · intro j chs' hj
    rw [hcreating] at hj
    cases hj
  · rcases set_some_cases hj with ⟨rfl, rfl⟩ | ⟨hji, hold⟩
    · refine ⟨_, flow, by rw [hm, Function.update_self], rfl, hchs, fun hf => absurd hzero hf,
        fun hf => ?_⟩
      rw [hsilent] at hf
      cases hf
    · obtain ⟨info, flow', hmj, hchs', hrefresh, hdst, hawake⟩ := b1 j bundle hold
      refine ⟨info, flow', by rw [hm, Function.update_of_ne hji, hmj], hchs', hrefresh, hdst,
        fun hf => hawake ?_⟩
      rwa [hflags _ (hlanes₀.flag j flow' (multicastAt_eq_some_iff.mp hmj).2.1)] at hf
  · rw [hm] at hj
    by_cases hji : j = i
    · exact ⟨_, by rw [hji]; exact hself⟩
    · rw [Function.update_of_ne hji] at hj
      obtain ⟨bundle, hb⟩ := b2 j m hj
      exact ⟨bundle, (hother hb).2⟩
  · rcases List.mem_append.mp hmem with hmem | hmem
    · obtain ⟨hzero', hne', bundle, info, flow', hb, hcell, hchs', hmb, hdst⟩ := b3 task hmem
      obtain ⟨hji, hb'⟩ := hother hb
      exact ⟨hzero', hne', bundle, info, flow', hb', hcell, hchs',
        by rw [hm, Function.update_of_ne hji, hmb], hdst⟩
    · obtain rfl := List.mem_singleton.mp hmem
      exact ⟨hzero, hne, _, _, flow, hself, rfl, rfl, by rw [hm, Function.update_self], rfl⟩
  · rw [List.map_append, List.nodup_append]
    refine ⟨a1, List.nodup_singleton _, fun c hc c' hc' => ?_⟩
    obtain rfl := List.mem_singleton.mp hc'
    obtain ⟨task, hmem, rfl⟩ := List.mem_map.mp hc
    obtain ⟨_, _, bundle, _, _, hbundle, hcell, _⟩ := b3 task hmem
    rw [← hcell]
    exact Nat.ne_of_lt (a2 _ bundle hbundle)
  · rcases set_some_cases hj with ⟨_, rfl⟩ | ⟨_, hold⟩
    · exact Nat.lt_succ_self _
    · exact Nat.lt_succ_of_lt (a2 j bundle hold)
  · rcases set_some_cases hj with ⟨rfl, rfl⟩ | ⟨hji, hold⟩ <;>
      rcases set_some_cases hk with ⟨rfl, rfl⟩ | ⟨hki, hold'⟩
    · rfl
    · exact absurd (a2 k bundle' hold') (by rw [← heq]; exact Nat.lt_irrefl _)
    · exact absurd (a2 j bundle hold) (by rw [heq]; exact Nat.lt_irrefl _)
    · exact a3 j k bundle bundle' hold hold' heq
  · obtain ⟨j, bundle, hid, hb, hactive⟩ := n1 id s hs
    exact ⟨j, bundle, hid, (hother hb).2, hactive⟩
  · obtain ⟨j, bundle, hid, ⟨hb, hactive⟩, hc⟩ := n2 c p hp
    exact ⟨j, bundle, hid, ⟨(hother hb).2, hactive⟩, hc⟩

theorem BundleInv.addFlowInternal (h : BundleInv dev w t) {i : Nat}
    (hfree : w.bundles[i]? = some none) (hcreating : w.creating = none) {chs : List (Option Nat)}
    {preferred : BitVec 32} {draw : MulticastDraw} (hcan : CanCreate dev w i chs preferred draw) :
    ∃ t', BundleInv dev (w.addFlowInternal dev i chs preferred draw) t' := by
  have htables := h.running.tables
  obtain ⟨hchs, hopen, hsocket, hpreferred, hindex⟩ := hcan
  have hlt : i < MAX_FLOWS := h.running.length ▸ (List.getElem?_eq_some_iff.mp hfree).1
  unfold TransmitMulticasts.addFlowInternal
  simp only [hfree, htables]
  split
  · exact ⟨t, h⟩
  next dstAddr dstPort hdst =>
  obtain ⟨hne, hnew⟩ : dstAddr ≠ 0 ∧ t.tx.ipPortToId ⟨dstAddr, dstPort⟩ = none := by
    split at hdst
    · exact randomMulticastDestination_ne_zero hdst
    · next hpref =>
        cases hdst
        exact ⟨hpref, hpreferred t htables hpref⟩
  obtain ⟨tx', flow, r, hadd, hlanes, hm, hsilent, hflags, _⟩ :=
    @Lanes.addMulticast _ _ h.running.lanes h.running.together (flowInfo dstAddr dstPort chs) rfl i
      hlt draw.flow ⟨hopen t htables, hsocket, hnew, hindex t htables⟩ FPP_MAX_ADVERTISED
      (dev.bitsPerSample / 8)
  have htogether := h.running.together.call (.addFlow (flowInfo dstAddr dstPort chs)
    FPP_MAX_ADVERTISED (dev.bitsPerSample / 8) (some i) true draw.flow)
  have hleaves : (TxCall.addFlow (flowInfo dstAddr dstPort chs) FPP_MAX_ADVERTISED
      (dev.bitsPerSample / 8) (some i) true draw.flow).leaves t.tx = tx' := by
    rw [TxCall.leaves, hadd]
  rw [hleaves] at htogether
  rw [addBundleFlow, hleaves, hadd]
  exact ⟨{ t with tx := tx' }, @BundleInv.insertBundle dev w t h i hfree chs hchs dstAddr hne
    dstPort { t with tx := tx' } htogether hlanes flow hm hsilent hflags hcreating⟩

/-! ## The tasks -/

/-- The other tasks have other cells. -/
theorem Apart.ne_of_mem_eraseIdx (h : w.Apart) {k : Nat} {task task' : GraceTask}
    (htask : w.tasks[k]? = some task) (hmem : task' ∈ w.tasks.eraseIdx k) :
    task'.dstAddrArc ≠ task.dstAddrArc := by
  obtain ⟨j, hne, hj⟩ := List.mem_eraseIdx_iff_getElem?.mp hmem
  intro heq
  refine hne ((List.getElem?_inj ?_ h.once).mp ?_)
  · rw [List.length_map]
    exact (List.getElem?_eq_some_iff.mp hj).1
  · rw [List.getElem?_map, List.getElem?_map, hj, htask, Option.map_some, Option.map_some, heq]

theorem BundleInv.activate (h : BundleInv dev w t) {k : Nat} {task : GraceTask}
    (htask : w.tasks[k]? = some task) :
    ∃ t', BundleInv dev
      (TransmitMulticasts.activate dev { w with tasks := w.tasks.eraseIdx k } t task) t' := by
  have hmem := List.mem_of_getElem? htask
  have hsub : ∀ task' ∈ w.tasks.eraseIdx k, task' ∈ w.tasks := fun _ => List.mem_of_mem_eraseIdx
  have hapart := h.apart
  obtain ⟨⟨h1, h2, h3, h4, h5, h6, h7⟩, ⟨b1, b2, b3⟩, ⟨a1, a2, a3, a4⟩, n1, n2⟩ := h
  obtain ⟨hzero, hne, bundle, info, flow, hb, hcell, hchs, hm, hdst⟩ := b3 task hmem
  obtain ⟨tx', hrun, hlanes, hmc, _, hflags⟩ := h5.activateMulticast hm
  have hrefresh : canRefresh dev task.channelIndices = true := by
    obtain ⟨_, _, _, _, hrefresh, _⟩ := b1 _ bundle hb
    rwa [hchs] at hrefresh
  have htogether := h4.call (.activateMulticastFlow task.flowIndex)
  rw [TxCall.leaves, hrun, Option.getD_some] at htogether
  unfold TransmitMulticasts.activate
  simp only [hrun, hrefresh, if_true]
  -- the bundles of other cells are as they were
  have hother : ∀ (j : Nat) (bundle' : Bundle), w.bundles[j]? = some (some bundle') →
      j ≠ task.flowIndex →
      Function.update w.dstAddrs task.dstAddrArc task.dstAddr bundle'.dstAddr =
        w.dstAddrs bundle'.dstAddr := by
    intro j bundle' hj hji
    refine Function.update_of_ne (fun heq => hji ?_) _ _
    exact a3 j _ bundle' bundle hj hb (heq.trans hcell.symm)
  have hself : Function.update w.dstAddrs task.dstAddrArc task.dstAddr bundle.dstAddr =
      task.dstAddr := by
    rw [hcell, Function.update_self]
  have hactive : ∀ (j : Nat) (bundle' : Bundle), w.IsActive j bundle' →
      Function.update w.dstAddrs task.dstAddrArc task.dstAddr bundle'.dstAddr ≠ 0 := by
    rintro j bundle' ⟨hj, hj'⟩
    by_cases hji : j = task.flowIndex
    · subst hji
      rw [hb] at hj
      cases hj
      rwa [hself]
    · rwa [hother j bundle' hj hji]
  refine ⟨{ t with tx := tx' }, ⟨rfl, h2, h3, htogether, hlanes, h6, h7⟩,
    ⟨fun j bundle' hj => ?_, fun j m hj => ?_, fun task' hmem' => ?_⟩,
    ⟨?_, a2, a3, fun c hc => ?_⟩, fun id s hs => ?_, fun c p hp => ?_⟩
  · obtain ⟨info', flow', hmj, hchs', hrefresh', hdst', hawake⟩ := b1 j bundle' hj
    rw [hmc]
    by_cases hji : j = task.flowIndex
    · subst hji
      rw [hb] at hj
      cases hj
      rw [hm] at hmj
      cases hmj
      refine ⟨info, flow, hm, hchs', hrefresh', fun _ => ?_, fun _ => ?_⟩
      · exact hdst.trans hself.symm
      · dsimp only
        rwa [hself]
    · refine ⟨info', flow', hmj, hchs', hrefresh', fun hf => ?_, fun hf => ?_⟩
      · dsimp only at hf ⊢
        rw [hother j bundle' hj hji] at hf ⊢
        exact hdst' hf
      · dsimp only at hf ⊢
        rw [hother j bundle' hj hji]
        rw [hflags j _ hji hmj] at hf
        exact hawake hf
  · rw [hmc] at hj
    exact b2 j m hj
  · obtain ⟨hzero', hrest⟩ := b3 task' (hsub task' hmem')
    rw [hmc]
    refine ⟨?_, hrest⟩
    dsimp only
    rw [Function.update_of_ne (hapart.ne_of_mem_eraseIdx htask hmem'), hzero']
  · exact a1.sublist ((List.eraseIdx_sublist _ _).map _)
  · have hne' : c ≠ task.dstAddrArc := by
      rintro rfl
      exact absurd (a2 _ bundle hb) (by rw [hcell]; exact Nat.not_lt.mpr hc)
    exact (Function.update_of_ne hne' _ _).trans (a4 c hc)
  · by_cases hid : id = task.flowIndex + 1
    · refine ⟨task.flowIndex, bundle, hid, hb, ?_⟩
      dsimp only
      rwa [hself]
    · dsimp only at hs
      rw [Function.update_of_ne hid] at hs
      obtain ⟨j, bundle', hid', hactive'⟩ := n1 id s hs
      exact ⟨j, bundle', hid', hactive'.1, hactive j bundle' hactive'⟩
  · by_cases hc : some c ∈ task.channelIndices
    · obtain ⟨pos, _, hins⟩ := ReverseIndex.insertAll_of_mem
        (fun channelInBundle => (⟨"", task.flowIndex + 1, channelInBundle⟩ : PointerToMulticast))
        w.multicastsByChannel hc
      cases hins.symm.trans hp
      refine ⟨task.flowIndex, bundle, rfl, ⟨hb, ?_⟩, hchs ▸ hc⟩
      dsimp only
      rwa [hself]
    · obtain ⟨j, bundle', hid', hactive', hc'⟩ :=
        n2 c p ((ReverseIndex.insertAll_of_not_mem _ _ hc).symm.trans hp)
      exact ⟨j, bundle', hid', ⟨hactive'.1, hactive j bundle' hactive'⟩, hc'⟩

theorem BundleInv.retry (h : BundleInv dev w t) {k : Nat} {task : GraceTask}
    (htask : w.tasks[k]? = some task) {draw : MulticastDraw}
    (hsocket : draw.flow.socketOk = true) (hopen : t.tx.receiverGone = false) :
    ∃ t', BundleInv dev ((w.retry dev t k task draw).getD w) t' := by
  have hmem := List.mem_of_getElem? htask
  have hlanes₀ := h.running.lanes
  have hinv := h
  obtain ⟨⟨h1, h2, h3, h4, h5, h6, h7⟩, ⟨b1, b2, b3⟩, ⟨a1, a2, a3, a4⟩, n1, n2⟩ := h
  obtain ⟨hzero, hne, bundle, info, flow, hb, hcell, hchs, hm, hdst⟩ := b3 task hmem
  have hlt : task.flowIndex < MAX_FLOWS := h6 ▸ (List.getElem?_eq_some_iff.mp hb).1
  obtain ⟨tx₁, hremove, hlanes₁, hm₁, hflags₁, hopen₁, hfree₁⟩ :=
    h5.removeMulticast h4.tables hopen hm
  have htogether₁ := h4.call (.removeMulticastFlow task.flowIndex)
  rw [TxCall.leaves, hremove] at htogether₁
  unfold TransmitMulticasts.retry
  simp only [hremove]
  cases hdraw : tx₁.randomMulticastDestination draw.addresses with
  | none => exact ⟨t, hinv⟩
  | some dst =>
      obtain ⟨dstAddr, dstPort⟩ := dst
      obtain ⟨hne', hnew⟩ := randomMulticastDestination_ne_zero hdraw
      obtain ⟨tx', flow', r, hadd, hlanes', hm', hsilent, hflags', _⟩ :=
        @Lanes.addMulticast _ _ hlanes₁ htogether₁ (flowInfo dstAddr dstPort task.channelIndices)
          rfl task.flowIndex hlt draw.flow ⟨hopen₁, hsocket, hnew, Or.inl hfree₁⟩
          FPP_MAX_ADVERTISED (dev.bitsPerSample / 8)
      have htogether' := htogether₁.call (.addFlow (flowInfo dstAddr dstPort task.channelIndices)
        FPP_MAX_ADVERTISED (dev.bitsPerSample / 8) (some task.flowIndex) true draw.flow)
      have hleaves : (TxCall.addFlow (flowInfo dstAddr dstPort task.channelIndices)
          FPP_MAX_ADVERTISED (dev.bitsPerSample / 8) (some task.flowIndex) true draw.flow).leaves
            tx₁ = tx' := by
        rw [TxCall.leaves, hadd]
      rw [hleaves] at htogether'
      simp only [addBundleFlow, hleaves, hadd, Option.isSome_some, if_true, Option.map_some,
        Option.getD_some]
      have hset : ∀ task' ∈ w.tasks.set k { task with dstAddr := dstAddr, dstPort := dstPort },
          task' ∈ w.tasks.eraseIdx k ∨
            task' = { task with dstAddr := dstAddr, dstPort := dstPort } := by
        intro task' hmem'
        obtain ⟨j, hj⟩ := List.mem_iff_getElem?.mp hmem'
        by_cases hjk : j = k
        · rw [hjk, List.getElem?_set_self (List.getElem?_eq_some_iff.mp htask).1] at hj
          exact Or.inr (Option.some.inj hj).symm
        · rw [List.getElem?_set_ne (Ne.symm hjk)] at hj
          exact Or.inl (List.mem_eraseIdx_iff_getElem?.mpr ⟨j, hjk, hj⟩)
      have hother : ∀ j, j ≠ task.flowIndex → tx'.multicastAt j = t.tx.multicastAt j := by
        intro j hj
        rw [hm', Function.update_of_ne hj, hm₁, Function.update_of_ne hj]
      have hself : tx'.multicastAt task.flowIndex =
          some (flowInfo dstAddr dstPort task.channelIndices, flow') := by
        rw [hm', Function.update_self]
      refine ⟨{ t with tx := tx' }, ⟨rfl, h2, h3, htogether', hlanes', h6, h7⟩,
        ⟨fun j bundle' hj => ?_, fun j m hj => ?_, fun task' hmem' => ?_⟩,
        ⟨?_, a2, a3, a4⟩, n1, n2⟩
      · by_cases hji : j = task.flowIndex
        · subst hji
          rw [hb] at hj
          cases hj
          obtain ⟨_, _, _, _, hrefresh, _⟩ := b1 _ bundle hb
          refine ⟨_, flow', hself, hchs.symm, hrefresh, fun hf => ?_, fun hf => ?_⟩
          · exact absurd (hcell ▸ hzero) hf
          · rw [hsilent] at hf
            cases hf
        · obtain ⟨info', flow₁, hmj, hchs', hrefresh', hdst', hawake⟩ := b1 j bundle' hj
          refine ⟨info', flow₁, (hother j hji).trans hmj, hchs', hrefresh', hdst', fun hf => ?_⟩
          have hlive : tx₁.flows j = some flow₁ := by
            have hmj₁ : tx₁.multicastAt j = some (info', flow₁) := by
              rw [hm₁, Function.update_of_ne hji, hmj]
            exact (multicastAt_eq_some_iff.mp hmj₁).2.1
          rw [hflags' _ (hlanes₁.flag j flow₁ hlive), hflags₁] at hf
          exact hawake hf
      · by_cases hji : j = task.flowIndex
        · exact ⟨bundle, hji ▸ hb⟩
        · rw [hother j hji] at hj
          exact b2 j m hj
      · rcases hset task' hmem' with hold | rfl
        · obtain ⟨hzero', hne₁, bundle', info', flow₁, hb', hcell', hchs', hmb, hdst'⟩ :=
            b3 task' (List.mem_of_mem_eraseIdx hold)
          have hji : task'.flowIndex ≠ task.flowIndex := by
            intro heq
            rw [heq, hb] at hb'
            cases hb'
            exact hinv.apart.ne_of_mem_eraseIdx htask hold (hcell'.symm.trans hcell)
          exact ⟨hzero', hne₁, bundle', info', flow₁, hb', hcell', hchs', (hother _ hji).trans hmb,
            hdst'⟩
        · exact ⟨hzero, hne', bundle, _, flow', hb, hcell, hchs, hself, rfl⟩
      · have hsame : (w.tasks.set k { task with dstAddr := dstAddr, dstPort := dstPort }).map
            GraceTask.dstAddrArc = w.tasks.map GraceTask.dstAddrArc := by
          obtain ⟨hk, hget⟩ := List.getElem?_eq_some_iff.mp htask
          rw [List.map_set]
          apply List.ext_getElem?
          intro j
          by_cases hjk : j = k
          · rw [hjk, List.getElem?_set_self (by rw [List.length_map]; exact hk), List.getElem?_map,
              htask]
            rfl
          · rw [List.getElem?_set_ne (Ne.symm hjk)]
        exact hsame ▸ a1

/-! ## Deleting -/

theorem BundleInv.removeFlow (h : BundleInv dev w t) {i : Nat} (hlt : i < MAX_FLOWS)
    (hmay : ∀ bundle, w.bundles[i]? = some (some bundle) → t.tx.receiverGone = false ∧
      ∀ task ∈ w.tasks, task.dstAddrArc ≠ bundle.dstAddr) :
    ∃ t', BundleInv dev (w.removeFlow dev i) t' := by
  have hinv := h
  obtain ⟨⟨h1, h2, h3, h4, h5, h6, h7⟩, ⟨b1, b2, b3⟩, ⟨a1, a2, a3, a4⟩, n1, n2⟩ := h
  unfold TransmitMulticasts.removeFlow TransmitMulticasts.removeFlowInternal
  rcases hb : w.bundles[i]? with _ | _ | bundle
  · rw [List.getElem?_eq_none_iff, h6] at hb
    exact absurd hlt (Nat.not_lt.mpr hb)
  · exact ⟨t, hinv⟩
  · obtain ⟨hopen, hwait⟩ := hmay bundle hb
    obtain ⟨info, flow, hm, _, hrefresh, _, _⟩ := b1 i bundle hb
    obtain ⟨tx', hremove, hlanes, hm', hflags, _, _⟩ := h5.removeMulticast h4.tables hopen hm
    have htogether := h4.call (.removeMulticastFlow i)
    rw [TxCall.leaves, hremove] at htogether
    simp only [h1, h2, if_true, removeBundle, hremove, hrefresh]
    have hother : ∀ {j : Nat} {bundle' : Bundle}, j ≠ i → w.bundles[j]? = some (some bundle') →
        (w.bundles.set i none)[j]? = some (some bundle') :=
      fun hj hb' => (List.getElem?_set_ne (Ne.symm hj)).trans hb'
    refine ⟨{ t with tx := tx' }, ⟨rfl, rfl, h3, htogether, hlanes, ?_, fun j chs hj => ?_⟩,
      ⟨fun j bundle' hj => ?_, fun j m hj => ?_, fun task hmem => ?_⟩,
      ⟨a1, fun j bundle' hj => a2 j bundle' (set_none_cases hj).2,
        fun j l bundle₁ bundle₂ hj hl => a3 j l bundle₁ bundle₂ (set_none_cases hj).2
          (set_none_cases hl).2, a4⟩, fun id s hs => ?_, fun c p hp => ?_⟩
    · exact (List.length_set).trans h6
    · obtain ⟨hpub, hfree⟩ := h7 j chs hj
      refine ⟨hpub, (List.getElem?_set_ne ?_).trans hfree⟩
      rintro rfl
      rw [hb] at hfree
      cases hfree
    · obtain ⟨hji, hold⟩ := set_none_cases hj
      obtain ⟨info', flow', hmj, hchs', hrefresh', hdst', hawake⟩ := b1 j bundle' hold
      refine ⟨info', flow', by rw [hm', Function.update_of_ne hji, hmj], hchs', hrefresh', hdst',
        fun hf => hawake ?_⟩
      rwa [hflags] at hf
    · rw [hm'] at hj
      by_cases hji : j = i
      · rw [hji, Function.update_self] at hj
        cases hj
      · rw [Function.update_of_ne hji] at hj
        obtain ⟨bundle', hb'⟩ := b2 j m hj
        exact ⟨bundle', hother hji hb'⟩
    · obtain ⟨hzero, hne, bundle', info', flow', hb', hcell, hchs', hmb, hdst'⟩ := b3 task hmem
      have hji : task.flowIndex ≠ i := by
        intro heq
        rw [heq, hb] at hb'
        cases hb'
        exact hwait task hmem hcell.symm
      exact ⟨hzero, hne, bundle', info', flow', hother hji hb', hcell, hchs',
        by rw [hm', Function.update_of_ne hji, hmb], hdst'⟩
    · have hs' : w.services id = some s ∧ (id = i + 1 → w.dstAddrs bundle.dstAddr = 0) := by
        dsimp only at hs
        split at hs
        · next hzero => exact ⟨hs, fun _ => hzero⟩
        · by_cases hid : id = i + 1
          · rw [hid, Function.update_self] at hs
            cases hs
          · rw [Function.update_of_ne hid] at hs
            exact ⟨hs, fun heq => absurd heq hid⟩
      obtain ⟨j, bundle', rfl, hb', hactive⟩ := n1 id s hs'.1
      have hji : j ≠ i := by
        rintro rfl
        rw [hb] at hb'
        cases hb'
        exact hactive (hs'.2 rfl)
      exact ⟨j, bundle', rfl, hother hji hb', hactive⟩
    · dsimp only at hp
      rw [ReverseIndex.eraseAll_apply] at hp
      split at hp
      · cases hp
      next hnot =>
      obtain ⟨j, bundle', hid, ⟨hb', hactive⟩, hc⟩ := n2 c p hp
      have hji : j ≠ i := by
        rintro rfl
        rw [hb] at hb'
        cases hb'
        exact hnot hc
      exact ⟨j, bundle', hid, ⟨hother hji hb', hactive⟩, hc⟩

/-! ## Every run -/

/-- The server has begun to create nothing, or something in a free place. -/
theorem BundleInv.setCreating (h : BundleInv dev w t) {creating : Option (Nat × List (Option Nat))}
    (hfree : ∀ i chs, creating = some (i, chs) → w.published = true ∧ w.bundles[i]? = some none) :
    BundleInv dev { w with creating := creating } t := by
  obtain ⟨⟨h1, h2, h3, h4, h5, h6, _⟩, ⟨b1, b2, b3⟩, ⟨a1, a2, a3, a4⟩, n1, n2⟩ := h
  exact ⟨⟨h1, h2, h3, h4, h5, h6, hfree⟩, ⟨b1, b2, b3⟩, ⟨a1, a2, a3, a4⟩, n1, n2⟩

/-- An index without a flow has no bundle. -/
theorem BundleInv.free_of_info (h : BundleInv dev w t) {i : Nat} (hlt : i < MAX_FLOWS)
    (hinfo : ∀ info, t.tx.flowsInfo[i]? ≠ some (some info)) : w.bundles[i]? = some none := by
  rcases hb : w.bundles[i]? with _ | _ | bundle
  · rw [List.getElem?_eq_none_iff, h.running.length] at hb
    exact absurd hlt (Nat.not_lt.mpr hb)
  · rfl
  · obtain ⟨info, flow, hm, _⟩ := h.belong.flow i bundle hb
    exact absurd (multicastAt_eq_some_iff.mp hm).1 (hinfo info)

theorem BundleInv.checkCreate (h : BundleInv dev w t) (hpublished : w.published = true)
    (flowId : Nat) (chs : List (Option Nat)) : BundleInv dev (w.checkCreate flowId chs) t := by
  unfold TransmitMulticasts.checkCreate
  split
  · exact h
  next hid =>
  obtain ⟨hpos, hle⟩ := not_or.mp hid
  split
  · exact h
  next t' ht' =>
  obtain rfl : t = t' := Option.some.inj (h.running.tables.symm.trans ht')
  split
  · exact h
  next hinfo =>
  refine h.setCreating fun i chs' heq => ?_
  cases heq
  exact ⟨hpublished, h.free_of_info (by omega) fun info => hinfo info⟩

theorem BundleInv.loadFlow (h : BundleInv dev w t) (hpublished : w.published = false)
    {saved : SavedMulticastTXFlow} {draw : MulticastDraw}
    (hcan : saved.flowId ≠ 0 → ∀ i, w.loadIndex saved.flowId = some i →
      CanCreate dev w i saved.channelIndices saved.dstAddr draw) :
    ∃ t', BundleInv dev (w.loadFlow dev saved draw) t' := by
  unfold TransmitMulticasts.loadFlow
  split
  · exact ⟨t, h⟩
  next hid =>
  split
  · next i hi =>
      have hfree : w.bundles[i]? = some none := by
        rw [loadIndex] at hi
        split at hi
        · next hfree =>
            cases hi
            exact hfree
        · obtain ⟨hlt, hnone, _⟩ := List.findIdx?_eq_some_iff_getElem.mp hi
          exact List.getElem?_eq_some_iff.mpr ⟨hlt, Option.isNone_iff_eq_none.mp hnone⟩
      have hcreating : w.creating = none := by
        refine Option.eq_none_iff_forall_ne_some.mpr fun r hr => ?_
        obtain ⟨hpub, _⟩ := h.running.creating r.1 r.2 hr
        rw [hpublished] at hpub
        cases hpub
      exact h.addFlowInternal hfree hcreating (hcan hid i hi)
  · exact ⟨t, h⟩

theorem BundleInv.addFlow (h : BundleInv dev w t) {draw : MulticastDraw}
    (hcan : ∀ i chs, w.creating = some (i, chs) → CanCreate dev w i chs 0 draw) :
    ∃ t', BundleInv dev (w.addFlow dev draw) t' := by
  unfold TransmitMulticasts.addFlow
  split
  · next i chs hcreating =>
      obtain ⟨_, hfree⟩ := h.running.creating i chs hcreating
      have h' : BundleInv dev { w with creating := none } t := h.setCreating nofun
      obtain ⟨c1, c2, c3, c4, c5⟩ := hcan i chs hcreating
      exact h'.addFlowInternal hfree rfl ⟨c1, c2, c3, c4, c5⟩
  · exact ⟨t, h⟩

theorem BundleInv.complete (h : BundleInv dev w t) (k : Nat) {ok : Bool} {draw : MulticastDraw}
    (hmay : ∀ task, w.tasks[k]? = some task → ok = true ∨
      draw.flow.socketOk = true ∧ t.tx.receiverGone = false) :
    ∃ t', BundleInv dev (w.complete dev k ok draw) t' := by
  unfold TransmitMulticasts.complete
  cases htask : w.tasks[k]? with
  | none => exact ⟨t, h⟩
  | some task =>
      dsimp only
      split
      · next hnone =>
          rw [h.running.tables] at hnone
          cases hnone
      next t' ht' =>
      obtain rfl : t = t' := Option.some.inj (h.running.tables.symm.trans ht')
      rw [if_pos h.running.working]
      cases ok with
      | true => exact h.activate htask
      | false =>
          obtain ⟨hsocket, hopen⟩ := (hmay task htask).resolve_left Bool.false_ne_true
          exact h.retry htask hsocket hopen

theorem BundleInv.step (h : BundleInv dev w t) (sampleRate : BitVec 32) {e : MulticastEvent}
    (hcareful : w.Careful dev e) : ∃ t', BundleInv dev (w.step dev sampleRate e) t' := by
  cases e with
  | load saved draw =>
      rw [TransmitMulticasts.step]
      split
      · exact ⟨t, h⟩
      · next hpub =>
          have hpub' : w.published = false := Bool.eq_false_iff.mpr hpub
          exact h.loadFlow hpub' (hcareful hpub')
  | publish =>
      rw [TransmitMulticasts.step, if_pos h.running.working]
      obtain ⟨⟨h1, h2, h3, h4, h5, h6, h7⟩, ⟨b1, b2, b3⟩, ⟨a1, a2, a3, a4⟩, n1, n2⟩ := h
      exact ⟨t, ⟨h1, h2, h3, h4, h5, h6, fun i chs hi => ⟨rfl, (h7 i chs hi).2⟩⟩, ⟨b1, b2, b3⟩,
        ⟨a1, a2, a3, a4⟩, n1, n2⟩
  | check flowId chs =>
      rw [TransmitMulticasts.step]
      split
      · next hpub =>
          rw [Bool.and_eq_true] at hpub
          exact ⟨t, h.checkCreate hpub.1 flowId chs⟩
      · exact ⟨t, h⟩
  | create draw =>
      rw [TransmitMulticasts.step]
      split
      · next hpub => exact h.addFlow (hcareful hpub)
      · refine ⟨t, h.setCreating fun i chs hi => ?_⟩
        cases hi
  | delete i =>
      rw [TransmitMulticasts.step]
      split
      · next hpub =>
          rw [Bool.and_eq_true, Option.isNone_iff_eq_none] at hpub
          obtain ⟨hlt, hmay⟩ := hcareful hpub.1 hpub.2
          exact h.removeFlow hlt fun bundle hb =>
            ⟨(hmay bundle hb).1 t h.running.tables, (hmay bundle hb).2⟩
      · exact ⟨t, h⟩
  | grace k used₁ used₂ draw =>
      refine h.complete k fun task htask => ?_
      rcases hcareful task htask with ⟨rfl, rfl⟩ | ⟨hsocket, hopen⟩
      · exact Or.inl rfl
      · exact Or.inr ⟨hsocket, hopen t h.running.tables⟩
  | unicast c =>
      have hkeeps := h.running.lanes.call_keeps h.running.together (hcareful t h.running.tables)
      rw [TransmitMulticasts.step, TransmitMulticasts.onTables, h.running.tables, Option.map_some]
      refine ⟨_, h.onTables (h.running.together.call c.call) hkeeps.lanes hkeeps.multicast
        fun id m hm hf => ?_⟩
      rwa [← hkeeps.flags _ (h.running.lanes.flag id m.2 (multicastAt_eq_some_iff.mp hm).2.1)]
  | drain now =>
      have htogether := TxTables.together_step h.running.together sampleRate (.drain now)
      have hkeeps : t.ThreadKeeps (t.step sampleRate (.drain now)) := by
        rw [TxTables.step]
        split
        · exact .refl h.running.lanes
        · next hgone =>
            exact TxTables.drain_keeps h.running.lanes (Bool.eq_false_iff.mpr hgone) _ now
      rw [TransmitMulticasts.step, TransmitMulticasts.onTables, h.running.tables, Option.map_some]
      exact ⟨_, h.onTables htogether hkeeps.lanes hkeeps.multicast hkeeps.flags⟩
  | expire slot =>
      have htogether := TxTables.together_step h.running.together sampleRate (.expire slot)
      have hkeeps : t.ThreadKeeps (t.step sampleRate (.expire slot)) := by
        rw [TxTables.step]
        split
        · exact .refl h.running.lanes
        · exact TxTables.expire_keeps h.running.lanes slot
      rw [TransmitMulticasts.step, TransmitMulticasts.onTables, h.running.tables, Option.map_some]
      exact ⟨_, h.onTables htogether hkeeps.lanes hkeeps.multicast hkeeps.flags⟩
  | shutdown =>
      have hpub : w.published = false := hcareful
      rw [TransmitMulticasts.step, hpub]
      exact ⟨t, h⟩
  | stop =>
      rw [TransmitMulticasts.step, if_pos h.running.working]
      exact ⟨t, h⟩

theorem BundleInv.run (h : BundleInv dev w t) (sampleRate : BitVec 32)
    {events : List MulticastEvent} (hcareful : CarefulRun dev sampleRate w events) :
    ∃ t', BundleInv dev (w.run dev sampleRate events) t' := by
  induction events generalizing w t with
  | nil => exact ⟨t, h⟩
  | cons e events ih =>
      obtain ⟨t', h'⟩ := h.step sampleRate hcareful.1
      exact ih h' hcareful.2

theorem new_bundleInv (flags : Flag → Bool) :
    BundleInv dev (new (TxTables.start flags)) (TxTables.start flags) := by
  have hnone : ∀ (i : Nat) (bundle : Bundle),
      (new (TxTables.start flags)).bundles[i]? ≠ some (some bundle) := by
    intro i bundle hi
    have hmem : some bundle ∈ List.replicate MAX_FLOWS none := List.mem_of_getElem? hi
    cases (List.mem_replicate.mp hmem).2
  refine ⟨⟨rfl, rfl, rfl, start_together flags, start_lanes flags, List.length_replicate, nofun⟩,
    ⟨fun i bundle hi => absurd hi (hnone i bundle), fun i m hi => ?_, nofun⟩,
    ⟨List.nodup_nil, fun i bundle hi => absurd hi (hnone i bundle),
      fun i j bundle bundle' hi _ _ => absurd hi (hnone i bundle), fun _ _ => rfl⟩, nofun, nofun⟩
  cases (multicastAt_eq_some_iff.mp hi).2.1

/-- In every careful run the bundles survive. -/
theorem bundles_survive (dev : MulticastDevice) (sampleRate : BitVec 32) (flags : Flag → Bool)
    (events : List MulticastEvent)
    (hcareful : CarefulRun dev sampleRate (new (TxTables.start flags)) events) :
    (run dev sampleRate (new (TxTables.start flags)) events).Survive := by
  obtain ⟨_, h⟩ := (new_bundleInv flags).run sampleRate hcareful
  exact h.survive

end

/-! ## Bundles of a device with two channels -/

/-- A request for a unicast flow to 10.0.0.2. -/
def unicastRequest : UnicastCall :=
  .addFlow "rx" (some "1_0") ⟨0x0a000002, 5000⟩ [some 1] 16 3 ⟨9, true⟩

/-- A bundle is created, its first address is taken, it is activated and
deleted; a receiver asks for a flow meanwhile. -/
def retriedBundle : List MulticastEvent :=
  [.publish, .check 1 [some 0], .create (drawn 1), .unicast unicastRequest,
    .grace 0 (some false) (some true) (drawn 2), .grace 0 (some false) (some false) (drawn 3),
    .delete 0]

theorem map_some_eq {α β : Type} {o : Option α} {f : α → β} {a : α} {b : β}
    (h : o.map f = some b) (ha : o = some a) : f a = b := by
  rw [ha] at h
  exact Option.some.inj h

theorem bundles_survive_retriedBundle : (twoOutputsRun retriedBundle).Survive := by
  refine bundles_survive twoOutputs 48000 (fun _ => false) retriedBundle
    ⟨trivial, trivial, fun _ i chs hi => ?_, fun t ht => ?_, fun task htask => ?_,
      fun task htask => Or.inl ⟨rfl, rfl⟩, fun _ _ => ⟨by decide, fun bundle hb => ⟨fun t ht => ?_,
      fun task hmem => ?_⟩⟩, trivial⟩
  · have hcreating : (twoOutputsRun (retriedBundle.take 2)).creating = some (0, [some 0]) := by
      decide
    cases hcreating.symm.trans hi
    refine ⟨by decide, fun t ht => ?_, rfl, fun _ _ hne => absurd rfl hne, fun t ht => ?_⟩
    · exact @map_some_eq _ _ (twoOutputsRun (retriedBundle.take 2)).flowsTx
        (fun t => t.tx.receiverGone) t false (by decide) ht
    · have hnone := @map_some_eq _ _ (twoOutputsRun (retriedBundle.take 2)).flowsTx
        (fun t => (t.tx.flows 0).isNone) t true (by decide) ht
      exact Or.inl (Option.isNone_iff_eq_none.mp hnone)
  · have hnone := @map_some_eq _ _ (twoOutputsRun (retriedBundle.take 3)).flowsTx
      (fun t => (t.tx.ipPortToId ⟨0x0a000002, 5000⟩).isNone) t true (by decide) ht
    refine ⟨rfl, fun id hid => ?_⟩
    rw [Option.isNone_iff_eq_none] at hnone
    cases hnone.symm.trans hid
  · refine Or.inr ⟨rfl, fun t ht => ?_⟩
    exact @map_some_eq _ _ (twoOutputsRun (retriedBundle.take 4)).flowsTx
      (fun t => t.tx.receiverGone) t false (by decide) ht
  · exact @map_some_eq _ _ (twoOutputsRun (retriedBundle.take 6)).flowsTx
      (fun t => t.tx.receiverGone) t false (by decide) ht
  · have htasks : (twoOutputsRun (retriedBundle.take 6)).tasks = [] := by decide
    have hmem' : task ∈ ([] : List GraceTask) := htasks ▸ hmem
    cases hmem'

/-- Bundle 1 is deleted while its task waits. -/
def deletedInGrace : List MulticastEvent :=
  [.publish, .check 1 [some 0], .create (drawn 1), .delete 0,
    .grace 0 (some false) (some false) (drawn 2)]

/-- The task advertises the bundle that is gone, and panics. -/
theorem deleted_bundle_advertised : ¬ (twoOutputsRun deletedInGrace).Survive := by
  intro h
  have hservice : ((twoOutputsRun deletedInGrace).services 1).isSome = true := by decide
  have hgone : (twoOutputsRun deletedInGrace).bundles[0]? = some none := by decide
  obtain ⟨s, hs⟩ := Option.isSome_iff_exists.mp hservice
  obtain ⟨bundle, _, _, _, hb, _⟩ := h.advertised 0 s hs
  cases hgone.symm.trans hb

end TransmitMulticasts

end Inferno
