import Inferno.MulticastSurvival

/-!
# The addresses of a device's bundles

What a careful step does to the addresses that a device pursues, by its waiting tasks,
and holds, by its active bundles (`BundleInv.moved`); cells tell them apart. The
multicast flows all go to one port, so that no address is pursued or held twice
(`BundleInv.cell_of_address`).
-/

namespace Inferno

/-- The completion of a task. -/
def MulticastEvent.isGrace : MulticastEvent → Bool
  | .grace .. => true
  | _ => false

namespace TransmitMulticasts

open FlowsTransmitter

/-- A task with this cell is after the address. -/
def Pursues (w : TransmitMulticasts) (c : Cell) (a : BitVec 32) : Prop :=
  ∃ task ∈ w.tasks, task.dstAddrArc = c ∧ task.dstAddr = a

/-- An active bundle with this cell has the address. -/
def Holds (w : TransmitMulticasts) (c : Cell) (a : BitVec 32) : Prop :=
  ∃ i bundle, w.IsActive i bundle ∧ bundle.dstAddr = c ∧ w.dstAddrs c = a

/-- The multicast flows go to the port of media. -/
def Ported (w : TransmitMulticasts) : Prop :=
  ∀ t, w.flowsTx = some t → ∀ i m, t.tx.multicastAt i = some m → m.1.dstPort = MEDIA_PORT

/-- The address that `remove_flow_internal` no longer reserves. -/
def released (w : TransmitMulticasts) : MulticastEvent → Option (BitVec 32)
  | .delete i =>
      match w.bundles[i]?, w.flowsTx with
      | some (some bundle), some _ =>
          if w.published ∧ w.creating = none ∧ w.shouldWork ∧ w.dstAddrs bundle.dstAddr ≠ 0 then
            some (w.dstAddrs bundle.dstAddr)
          else none
      | _, _ => none
  | _ => none

/-- What a step does to the addresses. -/
inductive Moved (w w' : TransmitMulticasts) : MulticastEvent → Prop where
  | still (e : MulticastEvent) (hkept : w.released e = none)
      (hp : ∀ c a, w'.Pursues c a ↔ w.Pursues c a)
      (hh : ∀ c a, w'.Holds c a ↔ w.Holds c a) : Moved w w' e
  | spawned (e : MulticastEvent) (c : Cell) (a : BitVec 32) (hkept : w.released e = none)
      (hgrace : e.isGrace = false) (hnew : ∀ a', ¬w.Pursues c a' ∧ ¬w.Holds c a')
      (hp : ∀ c' a', w'.Pursues c' a' ↔ w.Pursues c' a' ∨ c' = c ∧ a' = a)
      (hh : ∀ c' a', w'.Holds c' a' ↔ w.Holds c' a') : Moved w w' e
  | deleted (i : Nat) (bundle : Bundle) (hb : w.bundles[i]? = some (some bundle))
      (hreleased : ∀ a, w.released (.delete i) = some a ↔ w.Holds bundle.dstAddr a)
      (hp : ∀ c a, w'.Pursues c a ↔ w.Pursues c a)
      (hh : ∀ c a, w'.Holds c a ↔ w.Holds c a ∧ c ≠ bundle.dstAddr) : Moved w w' (.delete i)
  | activated (k : Nat) (used₁ used₂ : Option Bool) (draw : MulticastDraw) (task : GraceTask)
      (htask : w.tasks[k]? = some task) (hok : used₁ = some false ∧ used₂ = some false)
      (hp : ∀ c a, w'.Pursues c a ↔ w.Pursues c a ∧ c ≠ task.dstAddrArc)
      (hh : ∀ c a, w'.Holds c a ↔ w.Holds c a ∨ c = task.dstAddrArc ∧ a = task.dstAddr) :
      Moved w w' (.grace k used₁ used₂ draw)
  | retried (k : Nat) (used₁ used₂ : Option Bool) (draw : MulticastDraw) (task : GraceTask)
      (a : BitVec 32) (htask : w.tasks[k]? = some task)
      (hp : ∀ c a', w'.Pursues c a' ↔
        w.Pursues c a' ∧ c ≠ task.dstAddrArc ∨ c = task.dstAddrArc ∧ a' = a)
      (hh : ∀ c a', w'.Holds c a' ↔ w.Holds c a') : Moved w w' (.grace k used₁ used₂ draw)

section

variable {dev : MulticastDevice} {w w' : TransmitMulticasts} {t : TxTables}

/-! ## Addresses and flows -/

theorem pursues_congr (h : w'.tasks = w.tasks) (c : Cell) (a : BitVec 32) :
    w'.Pursues c a ↔ w.Pursues c a := by
  rw [Pursues, Pursues, h]

theorem holds_congr (hb : w'.bundles = w.bundles) (hd : w'.dstAddrs = w.dstAddrs) (c : Cell)
    (a : BitVec 32) : w'.Holds c a ↔ w.Holds c a := by
  simp only [Holds, IsActive, hb, hd]

/-- What is pursued or held has a flow, at the index of the bundle with the cell. -/
theorem BundleInv.flow_of_address (h : BundleInv dev w t) {c : Cell} {a : BitVec 32}
    (hc : w.Pursues c a ∨ w.Holds c a) : ∃ i bundle m, w.bundles[i]? = some (some bundle) ∧
      bundle.dstAddr = c ∧ t.tx.multicastAt i = some m ∧ m.1.dstAddr = a := by
  rcases hc with ⟨task, hmem, rfl, rfl⟩ | ⟨i, bundle, hactive, rfl, rfl⟩
  · obtain ⟨_, _, bundle, info, flow, hb, hcell, _, hm, hdst⟩ := h.belong.task task hmem
    exact ⟨_, bundle, _, hb, hcell, hm, hdst⟩
  · obtain ⟨info, flow, hm, _, _, hdst, _⟩ := h.belong.flow i bundle hactive.1
    exact ⟨i, bundle, _, hactive.1, rfl, hm, hdst hactive.2⟩

/-- No address is pursued or held twice. -/
theorem BundleInv.cell_of_address (h : BundleInv dev w t) (hport : w.Ported) {c c' : Cell}
    {a : BitVec 32} (hc : w.Pursues c a ∨ w.Holds c a) (hc' : w.Pursues c' a ∨ w.Holds c' a) :
    c = c' := by
  obtain ⟨i, bundle, ⟨info, flow⟩, hb, rfl, hm, haddr⟩ := h.flow_of_address hc
  obtain ⟨j, bundle', ⟨info', flow'⟩, hb', rfl, hm', haddr'⟩ := h.flow_of_address hc'
  have hports := hport t h.running.tables
  obtain ⟨hinfo, hflow, _⟩ := multicastAt_eq_some_iff.mp hm
  obtain ⟨hinfo', hflow', _⟩ := multicastAt_eq_some_iff.mp hm'
  have hdst : info.dst = info'.dst := by
    rw [FlowInfo.dst, FlowInfo.dst, hports i _ hm, hports j _ hm']
    exact congrArg (SocketAddr.mk · MEDIA_PORT) (haddr.trans haddr'.symm)
  have hremote : flow.remote = flow'.remote := by
    rw [← h.running.together.remote i flow info hflow hinfo,
      ← h.running.together.remote j flow' info' hflow' hinfo', hdst]
  have hid := h.running.together.tables.id i flow hflow
  rw [hremote, h.running.together.tables.id j flow' hflow'] at hid
  obtain rfl : j = i := Option.some.inj hid
  rw [hb] at hb'
  cases hb'
  rfl

/-- A cell is pursued for one address, or held. -/
theorem BundleInv.not_both (h : BundleInv dev w t) {c : Cell} {a a' : BitVec 32}
    (hp : w.Pursues c a) : ¬w.Holds c a' := by
  obtain ⟨task, hmem, rfl, _⟩ := hp
  rintro ⟨i, bundle, hactive, hcell, _⟩
  obtain ⟨hzero, _⟩ := h.belong.task task hmem
  exact hactive.2 (hcell ▸ hzero)

theorem BundleInv.pursues_inj (h : BundleInv dev w t) {c : Cell} {a a' : BitVec 32}
    (hp : w.Pursues c a) (hp' : w.Pursues c a') : a = a' := by
  obtain ⟨task, hmem, hcell, rfl⟩ := hp
  obtain ⟨task', hmem', hcell', rfl⟩ := hp'
  rw [List.inj_on_of_nodup_map h.apart.once hmem hmem' (hcell.trans hcell'.symm)]

theorem holds_inj {c : Cell} {a a' : BitVec 32} (h : w.Holds c a) (h' : w.Holds c a') : a = a' := by
  obtain ⟨_, _, _, _, rfl⟩ := h
  obtain ⟨_, _, _, _, rfl⟩ := h'
  rfl

/-- What is at a new cell. -/
theorem BundleInv.fresh (h : BundleInv dev w t) (a : BitVec 32) :
    ¬w.Pursues w.nextCell a ∧ ¬w.Holds w.nextCell a := by
  have hnone : ∀ (i : Nat) (bundle : Bundle), w.bundles[i]? = some (some bundle) →
      bundle.dstAddr ≠ w.nextCell := fun i bundle hb => Nat.ne_of_lt (h.apart.cell i bundle hb)
  constructor
  · intro hp
    obtain ⟨i, bundle, _, hb, hcell, _⟩ := h.flow_of_address (Or.inl hp)
    exact hnone i bundle hb hcell
  · intro hh
    obtain ⟨i, bundle, _, hb, hcell, _⟩ := h.flow_of_address (Or.inr hh)
    exact hnone i bundle hb hcell

/-! ## Every step -/

/-- Adding a bundle comes to nothing as long as no free address is drawn, or it enters
the bundle with a silent flow to its address. -/
theorem BundleInv.addFlowInternal_cases (h : BundleInv dev w t) {i : Nat}
    (hfree : w.bundles[i]? = some none) {chs : List (Option Nat)} {preferred : BitVec 32}
    {draw : MulticastDraw} (hcan : CanCreate dev w i chs preferred draw) :
    w.addFlowInternal dev i chs preferred draw = w ∨ ∃ dstAddr flow t', dstAddr ≠ 0 ∧
      t'.tx.multicastAt =
        Function.update t.tx.multicastAt i (some (flowInfo dstAddr MEDIA_PORT chs, flow)) ∧
      w.addFlowInternal dev i chs preferred draw =
        { w with flowsTx := some t' }.insertBundle i chs dstAddr MEDIA_PORT := by
  have htables := h.running.tables
  obtain ⟨hchs, hopen, hsocket, hpreferred, hindex⟩ := hcan
  have hlt : i < MAX_FLOWS := h.running.length ▸ (List.getElem?_eq_some_iff.mp hfree).1
  unfold TransmitMulticasts.addFlowInternal
  simp only [hfree, htables]
  split
  · exact Or.inl rfl
  next dstAddr dstPort hdst =>
  obtain ⟨hne, hnew, rfl⟩ : dstAddr ≠ 0 ∧ t.tx.ipPortToId ⟨dstAddr, dstPort⟩ = none ∧
      dstPort = MEDIA_PORT := by
    split at hdst
    · obtain ⟨ip, _, hip⟩ := Option.map_eq_some_iff.mp hdst
      obtain ⟨hne, hnew⟩ := randomMulticastDestination_ne_zero hdst
      exact ⟨hne, hnew, (congrArg Prod.snd hip).symm⟩
    · next hpref =>
        cases hdst
        exact ⟨hpref, hpreferred t htables hpref, rfl⟩
  obtain ⟨tx', flow, r, hadd, _, hm, _⟩ :=
    @Lanes.addMulticast _ _ h.running.lanes h.running.together (flowInfo dstAddr MEDIA_PORT chs) rfl
      i hlt draw.flow ⟨hopen t htables, hsocket, hnew, hindex t htables⟩ FPP_MAX_ADVERTISED
      (dev.bitsPerSample / 8)
  refine Or.inr ⟨dstAddr, flow, { t with tx := tx' }, hne, hm, ?_⟩
  rw [addBundleFlow, TxCall.leaves, hadd]
  rfl

/-- A conflict comes to nothing as long as no free address is drawn, or the task is
after another address. -/
theorem BundleInv.retry_cases (h : BundleInv dev w t) {k : Nat} {task : GraceTask}
    (htask : w.tasks[k]? = some task) {draw : MulticastDraw}
    (hsocket : draw.flow.socketOk = true) (hopen : t.tx.receiverGone = false) :
    w.retry dev t k task draw = none ∨ ∃ dstAddr flow t', dstAddr ≠ 0 ∧
      t'.tx.multicastAt = Function.update t.tx.multicastAt task.flowIndex
        (some (flowInfo dstAddr MEDIA_PORT task.channelIndices, flow)) ∧
      w.retry dev t k task draw = some { w with
        flowsTx := some t'
        tasks := w.tasks.set k { task with dstAddr := dstAddr, dstPort := MEDIA_PORT } } := by
  obtain ⟨_, _, bundle, info, flow, hb, _, _, hm, _⟩ :=
    h.belong.task task (List.mem_of_getElem? htask)
  have hlt : task.flowIndex < MAX_FLOWS :=
    h.running.length ▸ (List.getElem?_eq_some_iff.mp hb).1
  obtain ⟨tx₁, hremove, hlanes₁, hm₁, _, hopen₁, hfree₁⟩ :=
    h.running.lanes.removeMulticast h.running.together.tables hopen hm
  have htogether₁ := h.running.together.call (.removeMulticastFlow task.flowIndex)
  rw [TxCall.leaves, hremove] at htogether₁
  unfold TransmitMulticasts.retry
  simp only [hremove]
  cases hdraw : tx₁.randomMulticastDestination draw.addresses with
  | none => exact Or.inl rfl
  | some dst =>
      obtain ⟨dstAddr, dstPort⟩ := dst
      obtain ⟨hne, hnew⟩ := randomMulticastDestination_ne_zero hdraw
      obtain ⟨_, _, hport⟩ := Option.map_eq_some_iff.mp hdraw
      obtain rfl : MEDIA_PORT = dstPort := congrArg Prod.snd hport
      obtain ⟨tx', flow', r, hadd, _, hm', _⟩ :=
        @Lanes.addMulticast _ _ hlanes₁ htogether₁ (flowInfo dstAddr MEDIA_PORT task.channelIndices)
          rfl task.flowIndex hlt draw.flow ⟨hopen₁, hsocket, hnew, Or.inl hfree₁⟩
          FPP_MAX_ADVERTISED (dev.bitsPerSample / 8)
      refine Or.inr ⟨dstAddr, flow', { t with tx := tx' }, hne, ?_, ?_⟩
      · rw [hm', hm₁, Function.update_idem]
      · simp only [Option.map_some, addBundleFlow, TxCall.leaves, hadd, Option.isSome_some, if_true]

/-- An activation gives the bundle of the task its address and wakes its flow. -/
theorem BundleInv.activate_eq (h : BundleInv dev w t) {k : Nat} {task : GraceTask}
    (htask : w.tasks[k]? = some task) : ∃ t', t'.tx.multicastAt = t.tx.multicastAt ∧
      (TransmitMulticasts.activate dev { w with tasks := w.tasks.eraseIdx k } t task).flowsTx =
        some t' ∧
      (TransmitMulticasts.activate dev { w with tasks := w.tasks.eraseIdx k } t task).tasks =
        w.tasks.eraseIdx k ∧
      (TransmitMulticasts.activate dev { w with tasks := w.tasks.eraseIdx k } t task).bundles =
        w.bundles ∧
      (TransmitMulticasts.activate dev { w with tasks := w.tasks.eraseIdx k } t task).dstAddrs =
        Function.update w.dstAddrs task.dstAddrArc task.dstAddr := by
  obtain ⟨_, _, bundle, info, flow, hb, _, hchs, hm, _⟩ :=
    h.belong.task task (List.mem_of_getElem? htask)
  obtain ⟨tx', hrun, _, hmc, _⟩ := h.running.lanes.activateMulticast hm
  have hrefresh : canRefresh dev task.channelIndices = true := by
    obtain ⟨_, _, _, _, hrefresh, _⟩ := h.belong.flow _ bundle hb
    rwa [hchs] at hrefresh
  unfold TransmitMulticasts.activate
  simp only [hrun, hrefresh, if_true]
  exact ⟨{ t with tx := tx' }, hmc, by simp⟩

/-- Deleting a bundle removes its flow. -/
theorem BundleInv.removeFlow_eq (h : BundleInv dev w t) {i : Nat} {bundle : Bundle}
    (hb : w.bundles[i]? = some (some bundle)) (hopen : t.tx.receiverGone = false) :
    ∃ t', t'.tx.multicastAt = Function.update t.tx.multicastAt i none ∧
      (w.removeFlow dev i).flowsTx = some t' ∧ (w.removeFlow dev i).tasks = w.tasks ∧
      (w.removeFlow dev i).bundles = w.bundles.set i none ∧
      (w.removeFlow dev i).dstAddrs = w.dstAddrs := by
  obtain ⟨info, flow, hm, _, hrefresh, _, _⟩ := h.belong.flow i bundle hb
  obtain ⟨tx', hremove, _, hm', _, _, _⟩ :=
    h.running.lanes.removeMulticast h.running.together.tables hopen hm
  unfold TransmitMulticasts.removeFlow TransmitMulticasts.removeFlowInternal
  simp only [hb, h.running.tables, h.running.working, if_true, removeBundle, hremove, hrefresh]
  exact ⟨{ t with tx := tx' }, hm', by simp⟩

/-- The ports stay as they are where one flow to the port of media is put. -/
theorem Ported.update (hport : w.Ported) (ht : w.flowsTx = some t) {t' : TxTables} {i : Nat}
    {m : Option (FlowInfo × FlowData)} (hnew : ∀ m', m = some m' → m'.1.dstPort = MEDIA_PORT)
    (hm : t'.tx.multicastAt = Function.update t.tx.multicastAt i m) (ht' : w'.flowsTx = some t') :
    w'.Ported := by
  intro t'' ht'' j m' hj
  obtain rfl : t' = t'' := Option.some.inj (ht'.symm.trans ht'')
  rw [hm] at hj
  by_cases hji : j = i
  · rw [hji, Function.update_self] at hj
    exact hnew m' hj
  · rw [Function.update_of_ne hji] at hj
    exact hport t ht j m' hj

theorem Ported.same (hport : w.Ported) (ht : w.flowsTx = some t) {t' : TxTables}
    (hm : ∀ i, t'.tx.multicastAt i = t.tx.multicastAt i) (ht' : w'.flowsTx = some t') :
    w'.Ported := by
  intro t'' ht'' j m' hj
  obtain rfl : t' = t'' := Option.some.inj (ht'.symm.trans ht'')
  exact hport t ht j m' ((hm j).symm.trans hj)

/-- A new bundle has a task that is after its address, and is not active. -/
theorem BundleInv.moved_insert (h : BundleInv dev w t) {i : Nat} (hfree : w.bundles[i]? = some none)
    (chs : List (Option Nat)) {dstAddr : BitVec 32} (hne : dstAddr ≠ 0) (dstPort : BitVec 16)
    (flowsTx : Option TxTables) {e : MulticastEvent} (hkept : w.released e = none)
    (hgrace : e.isGrace = false) :
    Moved w ({ w with flowsTx := flowsTx }.insertBundle i chs dstAddr dstPort) e := by
  refine .spawned e w.nextCell dstAddr hkept hgrace h.fresh (fun c a => ?_) fun c a => ?_
  · unfold TransmitMulticasts.insertBundle
    rw [if_neg hne]
    constructor
    · rintro ⟨task, hmem, rfl, rfl⟩
      rcases List.mem_append.mp hmem with hmem | hmem
      · exact Or.inl ⟨task, hmem, rfl, rfl⟩
      · obtain rfl := List.mem_singleton.mp hmem
        exact Or.inr ⟨rfl, rfl⟩
    · rintro (⟨task, hmem, rfl, rfl⟩ | ⟨rfl, rfl⟩)
      · exact ⟨task, List.mem_append_left _ hmem, rfl, rfl⟩
      · exact ⟨_, List.mem_append_right _ (List.mem_singleton.mpr rfl), rfl, rfl⟩
  · constructor
    · rintro ⟨j, bundle, ⟨hj, hactive⟩, rfl, rfl⟩
      rcases set_some_cases hj with ⟨_, rfl⟩ | ⟨_, hold⟩
      · exact absurd (h.apart.fresh _ (Nat.le_refl _)) hactive
      · exact ⟨j, bundle, ⟨hold, hactive⟩, rfl, rfl⟩
    · rintro ⟨j, bundle, ⟨hj, hactive⟩, rfl, rfl⟩
      refine ⟨j, bundle, ⟨(List.getElem?_set_ne ?_).trans hj, hactive⟩, rfl, rfl⟩
      rintro rfl
      rw [hfree] at hj
      cases hj

/-- What an activation does to the addresses. -/
theorem BundleInv.moved_activate (h : BundleInv dev w t) {k : Nat} {task : GraceTask}
    (htask : w.tasks[k]? = some task) {used₁ used₂ : Option Bool}
    (hok : used₁ = some false ∧ used₂ = some false) (draw : MulticastDraw)
    (htasks : w'.tasks = w.tasks.eraseIdx k) (hbundles : w'.bundles = w.bundles)
    (haddrs : w'.dstAddrs = Function.update w.dstAddrs task.dstAddrArc task.dstAddr) :
    Moved w w' (.grace k used₁ used₂ draw) := by
  obtain ⟨hzero, hne, bundle, _, _, hb, hcell, _⟩ :=
    h.belong.task task (List.mem_of_getElem? htask)
  refine .activated k used₁ used₂ draw task htask hok (fun c a => ?_) fun c a => ?_
  · rw [Pursues, htasks]
    constructor
    · rintro ⟨task', hmem, rfl, rfl⟩
      exact ⟨⟨task', List.mem_of_mem_eraseIdx hmem, rfl, rfl⟩,
        h.apart.ne_of_mem_eraseIdx htask hmem⟩
    · rintro ⟨⟨task', hmem, rfl, rfl⟩, hcne⟩
      refine ⟨task', ?_, rfl, rfl⟩
      obtain ⟨j, hj⟩ := List.mem_iff_getElem?.mp hmem
      refine List.mem_eraseIdx_iff_getElem?.mpr ⟨j, ?_, hj⟩
      rintro rfl
      rw [htask] at hj
      exact hcne (congrArg GraceTask.dstAddrArc (Option.some.inj hj)).symm
  · simp only [Holds, IsActive, hbundles, haddrs]
    constructor
    · rintro ⟨j, bundle', ⟨hj, hactive⟩, rfl, rfl⟩
      by_cases hc : bundle'.dstAddr = task.dstAddrArc
      · rw [hc, Function.update_self]
        exact Or.inr ⟨rfl, rfl⟩
      · rw [Function.update_of_ne hc] at hactive ⊢
        exact Or.inl ⟨j, bundle', ⟨hj, hactive⟩, rfl, rfl⟩
    · rintro (⟨j, bundle', ⟨hj, hactive⟩, rfl, rfl⟩ | ⟨rfl, rfl⟩)
      · have hc : bundle'.dstAddr ≠ task.dstAddrArc := fun heq => hactive (by rw [heq, hzero])
        refine ⟨j, bundle', ⟨hj, ?_⟩, rfl, Function.update_of_ne hc _ _⟩
        rwa [Function.update_of_ne hc]
      · refine ⟨_, bundle, ⟨hb, ?_⟩, hcell, Function.update_self _ _ _⟩
        rwa [hcell, Function.update_self]

/-- What a conflict does to them: the task is after another address. -/
theorem BundleInv.moved_retry (h : BundleInv dev w t) {k : Nat} {task : GraceTask}
    (htask : w.tasks[k]? = some task) (used₁ used₂ : Option Bool) (draw : MulticastDraw)
    (dstAddr : BitVec 32) (dstPort : BitVec 16) (flowsTx : Option TxTables) :
    Moved w { w with
      flowsTx := flowsTx
      tasks := w.tasks.set k { task with dstAddr := dstAddr, dstPort := dstPort } }
      (.grace k used₁ used₂ draw) := by
  have hk : k < w.tasks.length := (List.getElem?_eq_some_iff.mp htask).1
  refine .retried k used₁ used₂ draw task dstAddr htask (fun c a => ?_)
    fun c a => holds_congr rfl rfl c a
  constructor
  · rintro ⟨task', hmem, rfl, rfl⟩
    obtain ⟨j, hj⟩ := List.mem_iff_getElem?.mp hmem
    by_cases hjk : j = k
    · rw [hjk, List.getElem?_set_self hk] at hj
      obtain rfl := Option.some.inj hj
      exact Or.inr ⟨rfl, rfl⟩
    · rw [List.getElem?_set_ne (Ne.symm hjk)] at hj
      exact Or.inl ⟨⟨task', List.mem_of_getElem? hj, rfl, rfl⟩,
        h.apart.ne_of_mem_eraseIdx htask (List.mem_eraseIdx_iff_getElem?.mpr ⟨j, hjk, hj⟩)⟩
  · rintro (⟨⟨task', hmem, rfl, rfl⟩, hcne⟩ | ⟨rfl, rfl⟩)
    · obtain ⟨j, hj⟩ := List.mem_iff_getElem?.mp hmem
      have hjk : j ≠ k := by
        rintro rfl
        rw [htask] at hj
        exact hcne (congrArg GraceTask.dstAddrArc (Option.some.inj hj)).symm
      exact ⟨task', List.mem_of_getElem? ((List.getElem?_set_ne (Ne.symm hjk)).trans hj), rfl, rfl⟩
    · exact ⟨_, List.mem_of_getElem? (List.getElem?_set_self hk), rfl, rfl⟩

/-- What a deletion does to them. -/
theorem BundleInv.moved_delete (h : BundleInv dev w t) (hpublished : w.published = true)
    (hcreating : w.creating = none) {i : Nat} {bundle : Bundle}
    (hb : w.bundles[i]? = some (some bundle)) (htasks : w'.tasks = w.tasks)
    (hbundles : w'.bundles = w.bundles.set i none) (haddrs : w'.dstAddrs = w.dstAddrs) :
    Moved w w' (.delete i) := by
  refine .deleted i bundle hb (fun a => ?_) (pursues_congr htasks) fun c a => ?_
  · simp only [released, hb, h.running.tables, hpublished, hcreating, h.running.working, true_and]
    constructor
    · intro ha
      split at ha
      · next hactive => exact ⟨i, bundle, ⟨hb, hactive⟩, rfl, Option.some.inj ha⟩
      · cases ha
    · rintro ⟨j, bundle', ⟨_, hactive⟩, hcell, rfl⟩
      rw [if_pos (hcell ▸ hactive)]
  simp only [Holds, IsActive, hbundles, haddrs]
  constructor
  · rintro ⟨j, bundle', ⟨hj, hactive⟩, rfl, rfl⟩
    obtain ⟨hji, hold⟩ := set_none_cases hj
    exact ⟨⟨j, bundle', ⟨hold, hactive⟩, rfl, rfl⟩,
      fun heq => hji (h.apart.cells j i bundle' bundle hold hb heq)⟩
  · rintro ⟨⟨j, bundle', ⟨hj, hactive⟩, rfl, rfl⟩, hcne⟩
    refine ⟨j, bundle', ⟨(List.getElem?_set_ne ?_).trans hj, hactive⟩, rfl, rfl⟩
    rintro rfl
    rw [hb] at hj
    cases hj
    exact hcne rfl

/-- Adding a bundle is still or spawns a task. -/
theorem BundleInv.moved_addFlowInternal (h : BundleInv dev w t) (hport : w.Ported) {i : Nat}
    (hfree : w.bundles[i]? = some none) {chs : List (Option Nat)} {preferred : BitVec 32}
    {draw : MulticastDraw} (hcan : CanCreate dev w i chs preferred draw) {e : MulticastEvent}
    (hkept : w.released e = none) (hgrace : e.isGrace = false) :
    Moved w (w.addFlowInternal dev i chs preferred draw) e ∧
      (w.addFlowInternal dev i chs preferred draw).Ported := by
  rcases h.addFlowInternal_cases hfree hcan with heq | ⟨dstAddr, flow, t', hne, hm, heq⟩
  · rw [heq]
    exact ⟨.still e hkept (fun _ _ => Iff.rfl) fun _ _ => Iff.rfl, hport⟩
  · rw [heq]
    refine ⟨h.moved_insert hfree chs hne MEDIA_PORT (some t') hkept hgrace,
      hport.update h.running.tables (fun m' hm' => ?_) hm rfl⟩
    rw [← Option.some.inj hm']
    rfl

/-- What a step of the tables alone does. -/
theorem BundleInv.moved_onTables (h : BundleInv dev w t) (hport : w.Ported) {e : MulticastEvent}
    (hkept : w.released e = none) (te : TxTablesEvent) (sampleRate : BitVec 32)
    (hm : ∀ i, (t.step sampleRate te).tx.multicastAt i = t.tx.multicastAt i) :
    Moved w (w.onTables te sampleRate) e ∧ (w.onTables te sampleRate).Ported := by
  refine ⟨.still e hkept (fun _ _ => Iff.rfl) fun _ _ => Iff.rfl,
    hport.same h.running.tables hm ?_⟩
  rw [TransmitMulticasts.onTables, h.running.tables, Option.map_some]

theorem BundleInv.moved_loadFlow (h : BundleInv dev w t) (hport : w.Ported)
    {saved : SavedMulticastTXFlow} {draw : MulticastDraw}
    (hcan : saved.flowId ≠ 0 → ∀ i, w.loadIndex saved.flowId = some i →
      CanCreate dev w i saved.channelIndices saved.dstAddr draw) {e : MulticastEvent}
    (hkept : w.released e = none) (hgrace : e.isGrace = false) :
    Moved w (w.loadFlow dev saved draw) e ∧ (w.loadFlow dev saved draw).Ported := by
  unfold TransmitMulticasts.loadFlow
  split
  · exact ⟨.still e hkept (fun _ _ => Iff.rfl) fun _ _ => Iff.rfl, hport⟩
  next hid =>
  split
  · next i hi =>
      refine h.moved_addFlowInternal hport ?_ (hcan hid i hi) hkept hgrace
      rw [loadIndex] at hi
      split at hi
      · next hfree =>
          cases hi
          exact hfree
      · obtain ⟨hlt, hnone, _⟩ := List.findIdx?_eq_some_iff_getElem.mp hi
        exact List.getElem?_eq_some_iff.mpr ⟨hlt, Option.isNone_iff_eq_none.mp hnone⟩
  · exact ⟨.still e hkept (fun _ _ => Iff.rfl) fun _ _ => Iff.rfl, hport⟩

theorem BundleInv.moved_complete (h : BundleInv dev w t) (hport : w.Ported) (k : Nat)
    (used₁ used₂ : Option Bool) {draw : MulticastDraw}
    (hmay : ∀ task, w.tasks[k]? = some task → used₁ = some false ∧ used₂ = some false ∨
      draw.flow.socketOk = true ∧ t.tx.receiverGone = false) :
    Moved w (w.complete dev k (!used₁.getD true && !used₂.getD true) draw)
        (.grace k used₁ used₂ draw) ∧
      (w.complete dev k (!used₁.getD true && !used₂.getD true) draw).Ported := by
  unfold TransmitMulticasts.complete
  cases htask : w.tasks[k]? with
  | none => exact ⟨.still _ rfl (fun _ _ => Iff.rfl) fun _ _ => Iff.rfl, hport⟩
  | some task =>
      dsimp only
      split
      · next hnone =>
          rw [h.running.tables] at hnone
          cases hnone
      next t₁ ht₁ =>
      obtain rfl : t = t₁ := Option.some.inj (h.running.tables.symm.trans ht₁)
      rw [if_pos h.running.working]
      by_cases hok : used₁ = some false ∧ used₂ = some false
      · obtain ⟨rfl, rfl⟩ := hok
        obtain ⟨t', hm, ht', htasks, hbundles, haddrs⟩ := h.activate_eq htask
        exact ⟨h.moved_activate htask ⟨rfl, rfl⟩ draw htasks hbundles haddrs,
          hport.same h.running.tables (fun i => congrFun hm i) ht'⟩
      · have hused : (!used₁.getD true && !used₂.getD true) = false := by
          rcases used₁ with _ | _ | _ <;> rcases used₂ with _ | _ | _ <;> simp_all
        obtain ⟨hsocket, hopen⟩ := (hmay task htask).resolve_left hok
        rw [hused, if_neg Bool.false_ne_true]
        rcases h.retry_cases htask hsocket hopen with heq | ⟨dstAddr, flow, t', hne, hm, heq⟩
        · rw [heq]
          exact ⟨.still _ rfl (fun _ _ => Iff.rfl) fun _ _ => Iff.rfl, hport⟩
        · rw [heq]
          refine ⟨h.moved_retry htask used₁ used₂ draw dstAddr MEDIA_PORT (some t'),
            hport.update h.running.tables (fun m' hm' => ?_) hm rfl⟩
          rw [← Option.some.inj hm']
          rfl

/-- What a careful step does to the addresses. -/
theorem BundleInv.moved (h : BundleInv dev w t) (hport : w.Ported) (sampleRate : BitVec 32)
    {e : MulticastEvent} (hcareful : w.Careful dev e) :
    Moved w (w.step dev sampleRate e) e ∧ (w.step dev sampleRate e).Ported := by
  have hstill : ∀ {w' : TransmitMulticasts} {e : MulticastEvent}, w.released e = none → w'.tasks = w.tasks →
      w'.bundles = w.bundles → w'.dstAddrs = w.dstAddrs → w'.flowsTx = w.flowsTx →
      Moved w w' e ∧ w'.Ported := by
    intro w' e hkept htasks hbundles haddrs htables
    exact ⟨.still e hkept (pursues_congr htasks) (holds_congr hbundles haddrs),
      fun t' ht' => hport t' (htables.symm.trans ht')⟩
  cases e with
  | load saved draw =>
      rw [TransmitMulticasts.step]
      split
      · exact hstill rfl rfl rfl rfl rfl
      · next hpub =>
          exact h.moved_loadFlow hport (hcareful (Bool.eq_false_iff.mpr hpub)) rfl rfl
  | publish =>
      rw [TransmitMulticasts.step]
      split <;> exact hstill rfl rfl rfl rfl rfl
  | check flowId chs =>
      rw [TransmitMulticasts.step]
      split
      · unfold TransmitMulticasts.checkCreate
        split
        · exact hstill rfl rfl rfl rfl rfl
        split
        · exact hstill rfl rfl rfl rfl rfl
        split <;> exact hstill rfl rfl rfl rfl rfl
      · exact hstill rfl rfl rfl rfl rfl
  | create draw =>
      rw [TransmitMulticasts.step]
      split
      swap
      · exact hstill rfl rfl rfl rfl rfl
      next hpub =>
      unfold TransmitMulticasts.addFlow
      split
      swap
      · exact hstill rfl rfl rfl rfl rfl
      next i chs hcreating =>
      obtain ⟨_, hfree⟩ := h.running.creating i chs hcreating
      obtain ⟨c1, c2, c3, c4, c5⟩ := hcareful hpub i chs hcreating
      have h' : BundleInv dev { w with creating := none } t :=
        h.setCreating fun _ _ hnone => by cases hnone
      obtain ⟨hmoved, hport'⟩ := h'.moved_addFlowInternal (e := .create draw) hport hfree
        ⟨c1, c2, c3, c4, c5⟩ rfl rfl
      refine ⟨?_, hport'⟩
      -- the addresses do not depend on what is being created
      cases hmoved with
      | still e _ hp hh => exact .still _ rfl hp hh
      | spawned e c a _ _ hnew hp hh => exact .spawned _ c a rfl rfl hnew hp hh
  | delete i =>
      rw [TransmitMulticasts.step]
      split
      swap
      · next hnot =>
          refine hstill ?_ rfl rfl rfl rfl
          rw [released]
          split
          · rw [if_neg]
            rintro ⟨hpub, hnone, _⟩
            exact hnot (by rw [hpub, hnone]; rfl)
          · rfl
      next hpub =>
      rw [Bool.and_eq_true, Option.isNone_iff_eq_none] at hpub
      obtain ⟨hlt, hmay⟩ := hcareful hpub.1 hpub.2
      rcases hb : w.bundles[i]? with _ | _ | bundle
      · rw [List.getElem?_eq_none_iff, h.running.length] at hb
        exact absurd hlt (Nat.not_lt.mpr hb)
      · unfold TransmitMulticasts.removeFlow TransmitMulticasts.removeFlowInternal
        simp only [hb]
        refine hstill ?_ rfl rfl rfl rfl
        rw [released, hb]
      · obtain ⟨t', hm, ht', htasks, hbundles, haddrs⟩ :=
          h.removeFlow_eq hb ((hmay bundle hb).1 t h.running.tables)
        exact ⟨h.moved_delete hpub.1 hpub.2 hb htasks hbundles haddrs,
          hport.update h.running.tables (fun _ hm' => by cases hm') hm ht'⟩
  | grace k used₁ used₂ draw =>
      refine h.moved_complete hport k used₁ used₂ fun task htask => ?_
      rcases hcareful task htask with hfree | ⟨hsocket, hopen⟩
      · exact Or.inl hfree
      · exact Or.inr ⟨hsocket, hopen t h.running.tables⟩
  | unicast c =>
      have hkeeps := h.running.lanes.call_keeps h.running.together (hcareful t h.running.tables)
      exact h.moved_onTables hport rfl _ sampleRate hkeeps.multicast
  | drain now =>
      have hkeeps : t.ThreadKeeps (t.step sampleRate (.drain now)) := by
        rw [TxTables.step]
        split
        · exact .refl h.running.lanes
        · next hgone =>
            exact TxTables.drain_keeps h.running.lanes (Bool.eq_false_iff.mpr hgone) _ now
      exact h.moved_onTables hport rfl _ sampleRate hkeeps.multicast
  | expire slot =>
      have hkeeps : t.ThreadKeeps (t.step sampleRate (.expire slot)) := by
        rw [TxTables.step]
        split
        · exact .refl h.running.lanes
        · exact TxTables.expire_keeps h.running.lanes slot
      exact h.moved_onTables hport rfl _ sampleRate hkeeps.multicast
  | shutdown =>
      have hpub : w.published = false := hcareful
      rw [TransmitMulticasts.step, hpub]
      exact hstill rfl rfl rfl rfl rfl
  | stop =>
      rw [TransmitMulticasts.step, if_pos h.running.working]
      exact hstill rfl rfl rfl rfl rfl

end

end TransmitMulticasts

end Inferno
