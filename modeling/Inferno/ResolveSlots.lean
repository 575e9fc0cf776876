import Inferno.ResolveLedger
import Inferno.SubscriberSteps

/-!
# No slot is planned for twice

Where the updates of a plan go: a slot of a flow that is there keeps its
transmitter channel if it is used or found, and is given to one channel if it
is free; new flows stand at indices that were free and are for their own
updates (`planResolve_placed`).
-/

namespace Inferno

open Partial

/-! ## Slots -/

/-- What a local channel is connected to. -/
def remoteOf (channels : List (Option ChannelSubscription)) (chi : Nat) : Option ChannelOtherEnd :=
  channels[chi]?.join.bind ChannelSubscription.remote

/-- The receive flow of an end, if it is there. -/
def flowAt (flows : List (Option RxFlow)) (r : ChannelOtherEnd) : Option RxFlow :=
  flows[r.localFlowIndex]?.join

/-- A unicast flow has the transmitter channel at the slot. -/
def Carries (flows : List (Option RxFlow)) (r : ChannelOtherEnd) : Prop :=
  ∀ flow, flowAt flows r = some flow → flow.bundle = none →
    flow.txChannels[r.channelInFlow]? = some (some r.txChannelId)

/-- Two ends at one slot of a unicast flow are for one transmitter channel. -/
def Compatible (flows : List (Option RxFlow)) (r r' : ChannelOtherEnd) : Prop :=
  ∀ flow, flowAt flows r = some flow → flow.bundle = none →
    r.localFlowIndex = r'.localFlowIndex → r.channelInFlow = r'.channelInFlow →
      r.txChannelId = r'.txChannelId

theorem Carries.compatible {flows : List (Option RxFlow)} {r r' : ChannelOtherEnd}
    (h : Carries flows r) (h' : Carries flows r') : Compatible flows r r' := by
  intro flow hflow hbundle hindex hslot
  have hflow' : flowAt flows r' = some flow := by rw [flowAt, ← hindex, ← flowAt, hflow]
  have hr := h flow hflow hbundle
  rw [hslot, h' flow hflow' hbundle] at hr
  exact (Option.some.inj (Option.some.inj hr)).symm

theorem Compatible.symm {flows : List (Option RxFlow)} {r r' : ChannelOtherEnd}
    (h : Compatible flows r r') : Compatible flows r' r := by
  intro flow hflow hbundle hindex hslot
  refine (h flow ?_ hbundle hindex.symm hslot.symm).symm
  rw [flowAt, ← hindex, ← flowAt, hflow]

theorem Compatible.of_ne {flows : List (Option RxFlow)} {r r' : ChannelOtherEnd}
    (h : (r.localFlowIndex, r.channelInFlow) ≠ (r'.localFlowIndex, r'.channelInFlow)) :
    Compatible flows r r' := by
  intro _ _ _ hindex hslot
  exact absurd (Prod.ext hindex hslot) h

theorem mem_unusedSlots {flow : RxFlow} {c : Nat} :
    c ∈ unusedSlots flow ↔
      c < flow.channelsRefcount.length ∧ flow.channelsRefcount.getD c 0 ≤ 0 := by
  simp [unusedSlots]

theorem unusedSlots_nodup (flow : RxFlow) : (unusedSlots flow).Nodup := List.nodup_range.filter _

/-- An end at a slot that somebody uses, with its transmitter channel. -/
structure InUse (flows : List (Option RxFlow)) (r : ChannelOtherEnd) : Prop where
  there : ∃ flow, flowAt flows r = some flow ∧ 0 < flow.channelsRefcount.getD r.channelInFlow 0
  carries : Carries flows r

/-! ## Where updates go -/

theorem connectedTo_mem {channels : List (Option ChannelSubscription)} {key : String × String}
    {r : ChannelOtherEnd} (h : connectedTo channels key = some r) :
    ∃ chi, remoteOf channels chi = some r := by
  obtain ⟨sub, hsub, hr⟩ := List.exists_of_findSome?_eq_some h
  obtain ⟨o, ho, rfl⟩ := List.mem_filterMap.mp hsub
  obtain ⟨chi, hchi⟩ := List.mem_iff_getElem?.mp ho
  split at hr
  · refine ⟨chi, ?_⟩
    rw [remoteOf, hchi]
    exact hr
  · cases hr

/-- What is shared is in use. -/
theorem reuseConnected_inUse {channels : List (Option ChannelSubscription)}
    {flows : List (Option RxFlow)} {aliases : Aliases} {l kept : List Nat}
    {resolved : List ChannelSourceUpdate}
    (h : reuseConnected channels aliases l = some (kept, resolved))
    (hserved : ∀ chi r, remoteOf channels chi = some r → InUse flows r) :
    ∀ u ∈ resolved, InUse flows u.remote := by
  intro u hu
  obtain ⟨_, _, hserves⟩ := reuseConnected_serves h
  obtain ⟨key, hkey⟩ := hserves.remote u hu
  obtain ⟨chi, hchi⟩ := connectedTo_mem hkey
  exact hserved chi u.remote hchi

/-! ## Flows there are -/

/-- Slots of a flow to one server that nobody uses. -/
def FreeIn (flows : List (Option RxFlow)) (addr : SocketAddr) (e : Nat × List Nat) : Prop :=
  ∃ flow dbcp1 handle, flows[e.1]?.join = some flow ∧ flow.source = .unicast addr dbcp1 handle ∧
    e.2.Sublist (unusedSlots flow)

namespace Plan

/-- The flows up to an index have been looked at. -/
structure Visited (flows : List (Option RxFlow)) (n : Nat) (p : Plan) : Prop where
  flowsEq : p.flows = flows
  carries : ∀ u ∈ p.resolved, Carries flows u.remote
  used : ∀ u ∈ p.resolved, ∃ flow, flowAt flows u.remote = some flow ∧
    (n ≤ u.remote.localFlowIndex → 0 < flow.channelsRefcount.getD u.remote.channelInFlow 0)
  free : ∀ addr slots, p.freeSlots.get? addr = some slots → ∀ e ∈ slots.entries,
    e.1 < n ∧ FreeIn flows addr e ∧
      ∀ u ∈ p.resolved, u.remote.localFlowIndex = e.1 → u.remote.channelInFlow ∉ e.2

theorem begin_visited (env : ResolveEnv) {flows : List (Option RxFlow)} (needed : List Nat)
    {resolved : List ChannelSourceUpdate} (h : ∀ u ∈ resolved, InUse flows u.remote) :
    (Plan.begin env flows needed resolved).Visited flows 0 := by
  suffices hfold : (needed.foldl (fun p lci => p.addAnswer lci (env.queryChan lci))
      (⟨flows, .empty, .empty, .empty, .empty, resolved, .empty⟩ : Plan)).Visited flows 0 from
    ⟨hfold.flowsEq, hfold.carries, hfold.used, hfold.free⟩
  refine foldl_inv (fun p lci _ hp => ?_) ⟨rfl, fun u hu => (h u hu).carries,
    fun u hu => (h u hu).there.imp fun flow hflow => ⟨hflow.1, fun _ => hflow.2⟩,
    fun addr slots hslots => by cases hslots⟩
  unfold Plan.addAnswer
  split
  · exact hp
  split
  · exact ⟨hp.flowsEq, hp.carries, hp.used, hp.free⟩
  · exact ⟨hp.flowsEq, hp.carries, hp.used, hp.free⟩

theorem Visited.skip {flows : List (Option RxFlow)} {n : Nat} {p : Plan} (h : p.Visited flows n) :
    p.Visited flows (n + 1) where
  flowsEq := h.flowsEq
  carries := h.carries
  used u hu := by
    obtain ⟨flow, hflow, hused⟩ := h.used u hu
    exact ⟨flow, hflow, fun hle => hused (Nat.le_of_succ_le hle)⟩
  free addr slots hslots e he := by
    obtain ⟨hlt, hfree, hnot⟩ := h.free addr slots hslots e he
    exact ⟨Nat.lt_succ_of_lt hlt, hfree, hnot⟩

/-- Updates to the flow that is looked at. -/
theorem Visited.resolve {flows : List (Option RxFlow)} {n : Nat} {p p' : Plan} {flow : RxFlow}
    (h : p.Visited flows n) (hflow : flows[n]?.join = some flow) {us : List ChannelSourceUpdate}
    (hus : ∀ u ∈ us, u.remote.localFlowIndex = n ∧ Carries flows u.remote)
    (hflows : p'.flows = p.flows)
    (hresolved : p'.resolved = p.resolved ++ us)
    (hfree : ∀ addr slots, p'.freeSlots.get? addr = some slots → ∀ e ∈ slots.entries,
      (∃ slots, p.freeSlots.get? addr = some slots ∧ e ∈ slots.entries) ∨
        e.1 = n ∧ FreeIn flows addr e ∧ ∀ u ∈ us, u.remote.channelInFlow ∉ e.2) :
    p'.Visited flows (n + 1) where
  flowsEq := hflows.trans h.flowsEq
  carries u hu := by
    rw [hresolved] at hu
    rcases List.mem_append.mp hu with hu | hu
    · exact h.carries u hu
    · exact (hus u hu).2
  used u hu := by
    rw [hresolved] at hu
    rcases List.mem_append.mp hu with hu | hu
    · exact h.skip.used u hu
    · obtain ⟨hindex, _⟩ := hus u hu
      refine ⟨flow, by rw [flowAt, hindex, hflow], fun hle => ?_⟩
      omega
  free addr slots hslots e he := by
    rw [hresolved]
    rcases hfree addr slots hslots e he with ⟨slots', hslots', he'⟩ | ⟨hindex, hfreeIn, hnot⟩
    · obtain ⟨hlt, hfreeIn, hnot⟩ := h.free addr slots' hslots' e he'
      refine ⟨Nat.lt_succ_of_lt hlt, hfreeIn, fun u hu hsame => ?_⟩
      rcases List.mem_append.mp hu with hu | hu
      · exact hnot u hu hsame
      · have := (hus u hu).1
        omega
    · refine ⟨by omega, hfreeIn, fun u hu hsame hmem => ?_⟩
      rcases List.mem_append.mp hu with hu | hu
      · obtain ⟨flow', hflow', hused⟩ := h.used u hu
        obtain ⟨flow'', _, _, hflow'', _, hsub⟩ := hfreeIn
        rw [flowAt, hsame, hflow''] at hflow'
        obtain rfl := Option.some.inj hflow'
        have hle := (mem_unusedSlots.mp (hsub.subset hmem)).2
        have hlt := hused (by omega)
        omega
      · exact hnot u hu hmem

theorem Visited.useFlow {aliases : Aliases} {flows : List (Option RxFlow)} {n : Nat} {p p' : Plan}
    {flow : RxFlow} (h : p.Visited flows n) (hflow : flows[n]?.join = some flow)
    (hrun : p.useFlow aliases n flow = some p') : p'.Visited flows (n + 1) := by
  cases used_of_useFlow hrun with
  | unasked => exact h.skip
  | @unicast addr dbcp1 handle channels updates found hsource hget hfind hfound =>
      obtain ⟨_, _, hserves⟩ := findInFlow_serves hfind
      have hus := hserves.remote
      refine h.resolve hflow (fun u (hu : u ∈ updates) => ⟨(hus u hu).1, ?_⟩) rfl rfl ?_
      · intro flow' hflow' _
        rw [flowAt, (hus u hu).1, hflow] at hflow'
        obtain rfl := Option.some.inj hflow'
        exact (hus u hu).2
      · intro addr' slots hslots e he
        by_cases haddr : addr' = addr
        · subst haddr
          rw [SortedMap.get?_alter_self] at hslots
          obtain rfl := Option.some.inj hslots
          rcases SortedMap.mem_insert he with he | rfl
          · refine .inl ?_
            cases hget : p.freeSlots.get? addr' with
            | none =>
                rw [hget] at he
                cases he
            | some slots =>
                rw [hget] at he
                exact ⟨slots, rfl, he⟩
          · refine .inr ⟨rfl, ⟨flow, dbcp1, handle, hflow, hsource, List.filter_sublist⟩,
              fun u hu hmem => ?_⟩
            have hany := (List.mem_filter.mp hmem).2
            simp only [Bool.not_eq_true', List.any_eq_false, beq_iff_eq] at hany
            exact hany u hu rfl
        · dsimp only at hslots
          rw [SortedMap.get?_alter_of_ne haddr] at hslots
          exact .inl ⟨slots, hslots, he⟩
  | @multicast name channels updates hsource hget hupdates =>
      have hus := (bundleUpdates_serves hupdates).remote
      refine h.resolve hflow (fun u (hu : u ∈ updates) => ⟨hus u hu, ?_⟩) rfl rfl
        fun addr slots hslots e he => .inl ⟨slots, hslots, he⟩
      intro flow' hflow' hnone
      rw [flowAt, hus u hu, hflow] at hflow'
      obtain rfl := Option.some.inj hflow'
      rw [RxFlow.bundle, hsource] at hnone
      cases hnone

theorem Visited.useFlows {aliases : Aliases} {flows rest : List (Option RxFlow)} {n : Nat}
    {p p' : Plan} (h : p.Visited flows n) (hdrop : flows.drop n = rest)
    (hrun : p.useFlows aliases n rest = some p') : p'.Visited flows flows.length := by
  induction rest generalizing p n with
  | nil =>
      obtain rfl := Option.some.inj hrun
      refine ⟨h.flowsEq, h.carries, fun u hu => ?_, fun addr slots hslots e he => ?_⟩
      · obtain ⟨flow, hflow, _⟩ := h.used u hu
        exact ⟨flow, hflow, fun hge => absurd (join_lt hflow) (Nat.not_lt.mpr hge)⟩
      · obtain ⟨_, hfree, hnot⟩ := h.free addr slots hslots e he
        obtain ⟨flow, dbcp1, handle, hflow, hrest⟩ := hfree
        exact ⟨join_lt hflow, ⟨flow, dbcp1, handle, hflow, hrest⟩, hnot⟩
  | cons o rest ih =>
      obtain ⟨hget, hdrop'⟩ := drop_cons hdrop
      cases o with
      | none => exact ih h.skip hdrop' hrun
      | some flow =>
          rw [Plan.useFlows] at hrun
          obtain ⟨p₁, h₁, hrun⟩ := Option.bind_eq_some_iff.mp hrun
          exact ih (h.useFlow (by rw [hget, Option.join_some]) h₁) hdrop' hrun

/-! ## Free slots -/

/-- Flows and their slots, one after the other. -/
def slotsOf (slots : SortedMap Nat (List Nat)) : List (Nat × Nat) :=
  slots.entries.flatMap fun e => e.2.map fun c => (e.1, c)

theorem mem_slotsOf {slots : SortedMap Nat (List Nat)} {slot : Nat × Nat} :
    slot ∈ slotsOf slots ↔ ∃ e ∈ slots.entries, slot.1 = e.1 ∧ slot.2 ∈ e.2 := by
  obtain ⟨flowIndex, c⟩ := slot
  simp only [slotsOf, List.mem_flatMap, List.mem_map, Prod.mk.injEq]
  constructor
  · rintro ⟨e, he, c', hc', hindex, rfl⟩
    exact ⟨e, he, hindex.symm, hc'⟩
  · rintro ⟨e, he, hindex, hc⟩
    exact ⟨e, he, c, hc, hindex.symm, rfl⟩

theorem slotsOf_nodup {slots : SortedMap Nat (List Nat)} (h : ∀ e ∈ slots.entries, e.2.Nodup) :
    (slotsOf slots).Nodup := by
  refine List.nodup_flatMap.mpr ⟨fun e he => (h e he).map fun c c' hc => (Prod.mk.inj hc).2,
    slots.sorted.imp fun {e e'} hlt => List.disjoint_left.mpr fun slot hslot hslot' => ?_⟩
  obtain ⟨c, _, rfl⟩ := List.mem_map.mp hslot
  obtain ⟨c', _, hsame⟩ := List.mem_map.mp hslot'
  have hindex := (Prod.mk.inj hsame).1
  omega

/-- A slot of the flows to a server that is free. -/
def FreeSlot (p : Plan) (addr : SocketAddr) (slot : Nat × Nat) : Prop :=
  ∃ slots, p.freeSlots.get? addr = some slots ∧ slot ∈ slotsOf slots

theorem Visited.freeSlot {flows : List (Option RxFlow)} {n : Nat} {p : Plan}
    (h : p.Visited flows n) {addr : SocketAddr} {slot : Nat × Nat} (hslot : p.FreeSlot addr slot) :
    ∃ flow dbcp1 handle, flows[slot.1]?.join = some flow ∧
      flow.source = .unicast addr dbcp1 handle ∧ slot.2 ∈ unusedSlots flow ∧
      ∀ u ∈ p.resolved, u.slot ≠ slot := by
  obtain ⟨slots, hget, hmem⟩ := hslot
  obtain ⟨e, he, hindex, hc⟩ := mem_slotsOf.mp hmem
  obtain ⟨_, ⟨flow, dbcp1, handle, hflow, hsource, hsub⟩, hnot⟩ := h.free addr slots hget e he
  refine ⟨flow, dbcp1, handle, by rw [hindex, hflow], hsource, hsub.subset hc, fun u hu hsame => ?_⟩
  subst hsame
  exact hnot u hu hindex hc

/-- The servers whose free slots have been used: their updates go to different
slots, all free. -/
structure Assigned (done : List SocketAddr) (p : Plan) : Prop where
  jobs : ∀ job ∈ p.jobs, IsUpdate job ∧ ∀ u ∈ job.updates, ∃ addr ∈ done, p.FreeSlot addr u.slot
  nodup : ((p.jobs.flatMap Job.updates).map ChannelSourceUpdate.slot).Nodup

theorem Assigned.useFree {aliases : Aliases} (hg : aliases.Grouped) {flows : List (Option RxFlow)}
    {n : Nat} {done : List SocketAddr} {p p' : Plan} (hv : p.Visited flows n) (h : p.Assigned done)
    {addr : SocketAddr} {channels : ChannelMap} (haddr : addr ∉ done)
    (hrun : p.useFree aliases addr channels = some p') : p'.Assigned (addr :: done) := by
  rcases useFree_cases hrun with rfl | ⟨freeSlots, left, changes, js, kept, hget, hassign, hjs,
    hupdate, hkept, hjobs, hp'⟩
  · refine ⟨fun job hjob => ⟨(h.jobs job hjob).1, fun u hu => ?_⟩, h.nodup⟩
    obtain ⟨addr', haddr', hslot⟩ := (h.jobs job hjob).2 u hu
    exact ⟨addr', List.mem_cons_of_mem _ haddr', hslot⟩
  have hsame : p'.freeSlots = p.freeSlots := by rw [hp']
  obtain ⟨assigned, hchanged, _, hslots⟩ := assignFree_spec hg hassign
  have hassigned : (js.flatMap Job.updates).Perm assigned := by
    rw [hjs]
    exact hchanged
  have hfree : ∀ u ∈ js.flatMap Job.updates, p.FreeSlot addr u.slot := fun u hu =>
    ⟨freeSlots, hget, hslots.subset (List.mem_map_of_mem (hassigned.subset hu))⟩
  have hsplit : ∀ job ∈ p'.jobs, job ∈ p.jobs ∨ job ∈ js := fun job hjob =>
    (List.mem_append.mp (hjobs.subset hjob)).imp_left fun hold => hkept.subset hold
  refine ⟨fun job hjob => ?_, ?_⟩
  · rcases hsplit job hjob with hold | hnew
    · refine ⟨(h.jobs job hold).1, fun u hu => ?_⟩
      obtain ⟨addr', haddr', hslot⟩ := (h.jobs job hold).2 u hu
      exact ⟨addr', List.mem_cons_of_mem _ haddr', by rw [FreeSlot, hsame]; exact hslot⟩
    · refine ⟨hupdate job hnew, fun u hu => ⟨addr, List.mem_cons_self, ?_⟩⟩
      rw [FreeSlot, hsame]
      exact hfree u (List.mem_flatMap.mpr ⟨job, hnew, hu⟩)
  · refine ((hjobs.flatMap_right Job.updates).map ChannelSourceUpdate.slot).nodup_iff.mpr ?_
    rw [List.flatMap_append, List.map_append]
    refine List.nodup_append.mpr ⟨?_, ?_, fun slot hslot slot' hslot' heq => ?_⟩
    · exact h.nodup.sublist ((hkept.flatMap Job.updates).map _)
    · refine (hassigned.map _).nodup_iff.mpr (hslots.sublist.nodup (slotsOf_nodup fun e he => ?_))
      obtain ⟨_, ⟨flow, _, _, _, _, hsub⟩, _⟩ := hv.free addr freeSlots hget e he
      exact (unusedSlots_nodup flow).sublist hsub
    · subst heq
      obtain ⟨u, hu, rfl⟩ := List.mem_map.mp hslot
      obtain ⟨u', hu', hsame'⟩ := List.mem_map.mp hslot'
      obtain ⟨job, hjob, hu⟩ := List.mem_flatMap.mp hu
      obtain ⟨addr', haddr', hslot₁⟩ := (h.jobs job (hkept.subset hjob)).2 u hu
      have hslot₂ := hfree u' hu'
      rw [hsame'] at hslot₂
      obtain ⟨flow, _, _, hflow, hsource, _⟩ := hv.freeSlot hslot₁
      obtain ⟨flow', _, _, hflow', hsource', _⟩ := hv.freeSlot hslot₂
      rw [hflow] at hflow'
      obtain rfl := Option.some.inj hflow'
      rw [hsource] at hsource'
      cases hsource'
      exact haddr haddr'

theorem Visited.useFree {aliases : Aliases} {flows : List (Option RxFlow)} {n : Nat} {p p' : Plan}
    (h : p.Visited flows n) {addr : SocketAddr} {channels : ChannelMap}
    (hrun : p.useFree aliases addr channels = some p') : p'.Visited flows n := by
  rcases useFree_cases hrun with rfl | ⟨_, _, _, _, _, _, _, _, _, _, _, hp'⟩
  · exact h
  · rw [hp']
    exact ⟨h.flowsEq, h.carries, h.used, h.free⟩

theorem Assigned.useFree_all {aliases : Aliases} (hg : aliases.Grouped)
    {flows : List (Option RxFlow)} {n : Nat} {done : List SocketAddr}
    {es : List (SocketAddr × ChannelMap)} {p p' : Plan} (hv : p.Visited flows n)
    (h : p.Assigned done) (hkeys : (es.map Prod.fst).Nodup)
    (hdone : ∀ e ∈ es, e.1 ∉ done)
    (hrun : es.foldlM (fun p e => p.useFree aliases e.1 e.2) p = some p') :
    p'.Visited flows n ∧ ∃ done, p'.Assigned done := by
  induction es generalizing p done with
  | nil =>
      obtain rfl := Option.some.inj hrun
      exact ⟨hv, done, h⟩
  | cons e es ih =>
      rw [List.foldlM_cons] at hrun
      obtain ⟨p₁, h₁, hrun⟩ := Option.bind_eq_some_iff.mp hrun
      obtain ⟨hnot, hkeys'⟩ := List.nodup_cons.mp hkeys
      obtain ⟨haddr, hdone'⟩ := List.forall_mem_cons.mp hdone
      refine ih (hv.useFree h₁) (h.useFree hg hv haddr h₁) hkeys' (fun e' he' hmem => ?_) hrun
      rcases List.mem_cons.mp hmem with heq | hmem
      · exact hnot (heq ▸ List.mem_map_of_mem he')
      · exact hdone' e' he' hmem

end Plan

/-! ## New flows -/

/-- The index of the flow that a future is there to make. -/
def Job.newFlow : Job → Option Nat
  | .updateFlow .. => none
  | .addMulticast flowIndex .. => some flowIndex
  | .requestFlow flowIndex .. => some flowIndex

/-- Neither of two futures has anything to do with the other's new flow. -/
def Job.Apart (j k : Job) : Prop :=
  (∀ f ∈ j.newFlow, f ∉ k.newFlow ∧ ∀ u ∈ k.updates, u.remote.localFlowIndex ≠ f) ∧
    ∀ f ∈ k.newFlow, ∀ u ∈ j.updates, u.remote.localFlowIndex ≠ f

theorem Job.Apart.symm {j k : Job} (h : j.Apart k) : k.Apart j :=
  ⟨fun f hf => ⟨fun hj => (h.1 f hj).1 hf, h.2 f hf⟩, fun f hf => (h.1 f hf).2⟩

/-- A flow is the one that a future is for. -/
def Job.MadeFor (flow : RxFlow) : Job → Prop
  | .updateFlow .. => True
  | .addMulticast _ advbundle latencySamples _ => (∃ name, flow.source = .multicast name) ∧
      flow.txChannels.length = advbundle.txChannelsPerFlow ∧ flow.latencySamples = latencySamples
  | .requestFlow _ _ txChannels _ latencySamples _ =>
      (∃ addr dbcp1, flow.source = .unicast addr dbcp1 none) ∧
        flow.txChannels.length = txChannels.length ∧ flow.latencySamples = latencySamples

theorem freeFlowIndex_free (flows : List (Option RxFlow)) :
    flows[freeFlowIndex flows]?.join = none := by
  rcases Nat.lt_or_ge (freeFlowIndex flows) flows.length with hlt | hge
  · have hnone := List.findIdx_getElem (w := hlt)
    rw [List.getElem?_eq_getElem hlt, Option.join_some]
    exact Option.isNone_iff_eq_none.mp hnone
  · rw [List.getElem?_eq_none hge, Option.join_none]

theorem freeFlowIndex_le (flows : List (Option RxFlow)) : freeFlowIndex flows ≤ flows.length :=
  List.findIdx_le_length

namespace Plan

theorem addFlow_flows (p : Plan) (flow : RxFlow) (addr : SocketAddr) (job : Job) (f : Nat) :
    (p.addFlow flow addr job).flows[f]?.join =
      if f = freeFlowIndex p.flows then some flow else p.flows[f]?.join := by
  show (if freeFlowIndex p.flows < p.flows.length then p.flows.set (freeFlowIndex p.flows) (some flow)
    else p.flows ++ [some flow])[f]?.join = _
  split
  · next hlt => exact join_set hlt (some flow) f
  · next hge =>
      have hlen : freeFlowIndex p.flows = p.flows.length :=
        Nat.le_antisymm (freeFlowIndex_le _) (Nat.not_lt.mp hge)
      rw [hlen]
      rcases Nat.lt_trichotomy f p.flows.length with hlt | rfl | hgt
      · rw [List.getElem?_append_left hlt, if_neg (Nat.ne_of_lt hlt)]
      · rw [List.getElem?_concat_length, if_pos rfl, Option.join_some]
      · rw [if_neg (Nat.ne_of_gt hgt), List.getElem?_eq_none (by simp; omega),
          List.getElem?_eq_none (Nat.le_of_lt hgt)]

theorem addFlow_jobs (p : Plan) (flow : RxFlow) (addr : SocketAddr) (job : Job) :
    (p.addFlow flow addr job).jobs.Perm (p.jobs ++ [job]) := (p.putFlow flow).pushFuture_jobs addr job

theorem addFlow_updates (p : Plan) (flow : RxFlow) (addr : SocketAddr) (job : Job) :
    (p.addFlow flow addr job).updates.Perm (p.updates ++ job.updates) := by
  have h := (p.addFlow_jobs flow addr job).flatMap_right Job.updates
  rw [List.flatMap_append, List.flatMap_singleton] at h
  rw [updates, updates, List.append_assoc]
  exact h.append_left _

/-- Where everything of a plan stands, over the flows there were before. -/
structure Placed (flows : List (Option RxFlow)) (p : Plan) : Prop where
  old : ∀ (f : Nat) flow, flows[f]?.join = some flow → p.flows[f]?.join = some flow
  fresh : ∀ (f : Nat) flow, p.flows[f]?.join = some flow →
    flows[f]?.join = some flow ∨ flows[f]?.join = none ∧ ∀ rc ∈ flow.channelsRefcount, rc = 0
  covered : ∀ (f : Nat) flow, p.flows[f]?.join = some flow →
    flows[f]?.join = some flow ∨ ∃ job ∈ p.jobs, f ∈ job.newFlow
  targets : ∀ u ∈ p.updates, (flowAt p.flows u.remote).isSome
  compatible : p.updates.Pairwise fun u v => Compatible p.flows u.remote v.remote
  used : ∀ u ∈ p.updates, ∀ flow, flowAt flows u.remote = some flow → flow.bundle = none →
    0 < flow.channelsRefcount.getD u.remote.channelInFlow 0 →
      flow.txChannels[u.remote.channelInFlow]? = some (some u.remote.txChannelId)
  resolved : ∀ u ∈ p.resolved, (flowAt flows u.remote).isSome
  newFlow : ∀ job ∈ p.jobs, ∀ f ∈ job.newFlow, flows[f]?.join = none ∧
    (p.flows[f]?.join).isSome ∧ ∀ u ∈ job.updates, u.remote.localFlowIndex = f
  made : ∀ job ∈ p.jobs, ∀ f ∈ job.newFlow, ∃ flow, p.flows[f]?.join = some flow ∧ job.MadeFor flow
  apart : p.jobs.Pairwise Job.Apart

theorem Placed.compatible_of_mem {flows : List (Option RxFlow)} {p : Plan} (h : p.Placed flows)
    {u v : ChannelSourceUpdate} (hu : u ∈ p.updates) (hv : v ∈ p.updates) :
    Compatible p.flows u.remote v.remote :=
  List.Pairwise.forall_of_forall_of_flip (fun _ _ _ _ _ _ _ => rfl) h.compatible
    (h.compatible.imp fun hc => hc.symm) hu hv

theorem Assigned.placed {flows : List (Option RxFlow)} {n : Nat} {done : List SocketAddr} {p : Plan}
    (hv : p.Visited flows n) (h : p.Assigned done) : p.Placed flows := by
  have hflows := hv.flowsEq
  have hjob : ∀ job ∈ p.jobs, job.newFlow = none := by
    intro job hjob
    obtain ⟨_, _, _, _, _, rfl⟩ := (h.jobs job hjob).1
    rfl
  have hfree : ∀ u ∈ p.jobs.flatMap Job.updates, ∃ flow, flowAt flows u.remote = some flow ∧
      u.remote.channelInFlow ∈ unusedSlots flow ∧ ∀ v ∈ p.resolved, v.slot ≠ u.slot := by
    intro u hu
    obtain ⟨job, hjob, hu⟩ := List.mem_flatMap.mp hu
    obtain ⟨addr, _, hslot⟩ := (h.jobs job hjob).2 u hu
    obtain ⟨flow, _, _, hflow, _, hunused, hnot⟩ := hv.freeSlot hslot
    exact ⟨flow, hflow, hunused, hnot⟩
  refine ⟨fun f flow hf => hflows.symm ▸ hf, fun f flow hf => .inl (hflows ▸ hf),
    fun f flow hf => .inl (hflows ▸ hf), fun u hu => ?_, ?_, fun u hu flow hflow hbundle hrc => ?_,
    fun u hu => ?_, fun job hmem f hf => ?_, fun job hmem f hf => ?_, ?_⟩
  · rw [hflows]
    rcases List.mem_append.mp hu with hu | hu
    · obtain ⟨flow, hflow, _⟩ := hv.used u hu
      rw [hflow]
      rfl
    · obtain ⟨flow, hflow, _⟩ := hfree u hu
      rw [hflow]
      rfl
  · refine List.pairwise_append.mpr ⟨?_, ?_, fun u hu v hv' => ?_⟩
    · rw [hflows]
      exact List.pairwise_of_forall_mem_list fun u hu v hv' =>
        (hv.carries u hu).compatible (hv.carries v hv')
    · exact (List.pairwise_map.mp h.nodup).imp fun hne => .of_ne hne
    · obtain ⟨_, _, _, hnot⟩ := hfree v hv'
      exact .of_ne (hnot u hu)
  · rcases List.mem_append.mp hu with hu | hu
    · exact hv.carries u hu flow hflow hbundle
    · obtain ⟨flow', hflow', hunused, _⟩ := hfree u hu
      rw [hflow] at hflow'
      obtain rfl := Option.some.inj hflow'
      have hle := (mem_unusedSlots.mp hunused).2
      omega
  · obtain ⟨flow, hflow, _⟩ := hv.used u hu
    rw [hflow]
    rfl
  · rw [hjob job hmem] at hf
    cases hf
  · rw [hjob job hmem] at hf
    cases hf
  · refine List.pairwise_of_forall_mem_list fun j hj k hk => ⟨fun f hf => ?_, fun f hf => ?_⟩
    · rw [hjob j hj] at hf
      cases hf
    · rw [hjob k hk] at hf
      cases hf

/-- A new flow with its future. -/
theorem Placed.addFlow {flows : List (Option RxFlow)} {p : Plan} (h : p.Placed flows)
    {flow : RxFlow} {addr : SocketAddr} {job : Job} (hzero : ∀ rc ∈ flow.channelsRefcount, rc = 0)
    (hnew : job.newFlow = some (freeFlowIndex p.flows)) (hmade : job.MadeFor flow)
    (hupdates : ∀ u ∈ job.updates, u.remote.localFlowIndex = freeFlowIndex p.flows)
    (hslots : flow.bundle = none → (job.updates.map ChannelSourceUpdate.slot).Nodup) :
    (p.addFlow flow addr job).Placed flows := by
  have hat := p.addFlow_flows flow addr job
  have hfree := freeFlowIndex_free p.flows
  have hne : ∀ f, (p.flows[f]?.join).isSome → f ≠ freeFlowIndex p.flows := by
    intro f hf heq
    rw [heq, hfree] at hf
    cases hf
  have hperm := p.addFlow_updates flow addr job
  have hjobs := p.addFlow_jobs flow addr job
  have hold : flows[freeFlowIndex p.flows]?.join = none := by
    cases hget : flows[freeFlowIndex p.flows]?.join with
    | none => rfl
    | some flow' =>
        have hp := h.old _ _ hget
        rw [hfree] at hp
        cases hp
  have hsplit : ∀ u ∈ (p.addFlow flow addr job).updates, u ∈ p.updates ∨ u ∈ job.updates :=
    fun u hu => List.mem_append.mp (hperm.subset hu)
  refine ⟨fun f flow' hf => ?_, fun f flow' hf => ?_, fun f flow' hf => ?_, fun u hu => ?_, ?_,
    fun u hu flow' hflow' => ?_, h.resolved, fun job' hjob' f hf => ?_, fun job' hjob' f hf => ?_, ?_⟩
  · have hf' := h.old f flow' hf
    rw [hat, if_neg (hne f (by rw [hf']; rfl)), hf']
  · rw [hat] at hf
    split at hf
    · next heq =>
        obtain rfl := Option.some.inj hf
        exact .inr ⟨heq ▸ hold, hzero⟩
    · exact h.fresh f flow' hf
  · rw [hat] at hf
    split at hf
    · next heq => exact .inr ⟨job, hjobs.symm.subset (by simp), heq ▸ hnew⟩
    · rcases h.covered f flow' hf with hf | ⟨job', hjob', hf⟩
      · exact .inl hf
      · exact .inr ⟨job', hjobs.symm.subset (List.mem_append_left _ hjob'), hf⟩
  · rw [flowAt, hat]
    split
    · rfl
    · next hother =>
        rcases hsplit u hu with hu | hu
        · exact h.targets u hu
        · exact absurd (hupdates u hu) hother
  · refine (hperm.pairwise_iff fun hc => hc.symm).mpr (List.pairwise_append.mpr ⟨?_, ?_, ?_⟩)
    · refine (List.pairwise_iff_forall_sublist.mpr fun {u v} hsub => ?_)
      have hu := hsub.subset List.mem_cons_self
      intro flow' hflow'
      rw [flowAt, hat, if_neg (hne _ (h.targets u hu))] at hflow'
      exact List.pairwise_iff_forall_sublist.mp h.compatible hsub flow' hflow'
    · cases hbundle : flow.bundle with
      | none => exact (List.pairwise_map.mp (hslots hbundle)).imp fun hne => .of_ne hne
      | some name =>
          refine List.pairwise_of_forall_mem_list fun u hu v _ flow' hflow' hnone => ?_
          rw [flowAt, hat, if_pos (hupdates u hu)] at hflow'
          obtain rfl := Option.some.inj hflow'
          rw [hbundle] at hnone
          cases hnone
    · intro u hu v hv flow' _ _ hindex
      exact absurd (hindex.trans (hupdates v hv)) (hne _ (h.targets u hu))
  · rcases hsplit u hu with hu | hu
    · exact h.used u hu flow' hflow'
    · rw [flowAt, hupdates u hu, hold] at hflow'
      cases hflow'
  · rcases List.mem_append.mp (hjobs.subset hjob') with hjob' | hjob'
    · obtain ⟨hnone, hsome, hall⟩ := h.newFlow job' hjob' f hf
      refine ⟨hnone, ?_, hall⟩
      rw [hat, if_neg (hne f hsome)]
      exact hsome
    · rw [List.mem_singleton.mp hjob', hnew] at hf
      obtain rfl := Option.some.inj hf
      rw [List.mem_singleton.mp hjob', hat, if_pos rfl]
      exact ⟨hold, rfl, hupdates⟩
  · rcases List.mem_append.mp (hjobs.subset hjob') with hjob' | hjob'
    · obtain ⟨flow', hflow', hmade'⟩ := h.made job' hjob' f hf
      exact ⟨flow', by rw [hat, if_neg (hne f (by rw [hflow']; rfl)), hflow'], hmade'⟩
    · rw [List.mem_singleton.mp hjob', hnew] at hf
      obtain rfl := Option.some.inj hf
      exact ⟨flow, by rw [hat, if_pos rfl], List.mem_singleton.mp hjob' ▸ hmade⟩
  · refine (hjobs.pairwise_iff fun ha => ha.symm).mpr (List.pairwise_append.mpr
      ⟨h.apart, List.pairwise_singleton _ _, fun j hj k hk => ?_⟩)
    obtain rfl := List.mem_singleton.mp hk
    refine ⟨fun f hf => ?_, fun f hf u hu heq => ?_⟩
    · obtain ⟨_, hsome, _⟩ := h.newFlow j hj f hf
      refine ⟨fun hmem => ?_, fun u hu heq => ?_⟩
      · rw [hnew] at hmem
        exact hne f hsome (Option.some.inj hmem).symm
      · exact hne f hsome (heq.symm.trans (hupdates u hu))
    · rw [hnew] at hf
      obtain rfl := Option.some.inj hf
      refine hne _ (h.targets u ?_) heq
      exact List.mem_append_right _ (List.mem_flatMap.mpr ⟨j, hj, hu⟩)

theorem addFlow_bundles (p : Plan) (flow : RxFlow) (addr : SocketAddr) (job : Job) :
    (bundleNames (p.addFlow flow addr job).flows).Perm (bundleNames p.flows ++ flow.bundle.toList) := by
  show (bundleNames (if freeFlowIndex p.flows < p.flows.length then
    p.flows.set (freeFlowIndex p.flows) (some flow) else p.flows ++ [some flow])).Perm _
  have hsingle : bundleNames [some flow] = flow.bundle.toList := by
    rw [bundleNames, List.filterMap_cons, Option.bind_some]
    cases flow.bundle <;> rfl
  split
  · next hlt =>
      have hnone : p.flows[freeFlowIndex p.flows] = none := by
        have hfree := freeFlowIndex_free p.flows
        rwa [List.getElem?_eq_getElem hlt, Option.join_some] at hfree
      have hold : bundleNames p.flows = bundleNames (p.flows.take (freeFlowIndex p.flows)) ++
          bundleNames (p.flows.drop (freeFlowIndex p.flows + 1)) := by
        conv_lhs => rw [← List.take_append_drop (freeFlowIndex p.flows) p.flows,
          List.drop_eq_getElem_cons hlt, hnone]
        rw [bundleNames, List.filterMap_append, List.filterMap_cons_none rfl]
        rfl
      rw [List.set_eq_take_append_cons_drop, if_pos hlt, hold, ← hsingle, List.append_assoc]
      rw [bundleNames, List.filterMap_append, ← List.singleton_append, List.filterMap_append]
      exact List.perm_append_comm.append_left _
  · rw [bundleNames, List.filterMap_append]
    exact .of_eq (congrArg _ hsingle)

theorem new_refcounts (localId : Nat) (source : FlowSource) (n : Nat) (txChannels : List (BitVec 16))
    (latencySamples now : Nat) :
    ∀ rc ∈ (RxFlow.new localId source n txChannels latencySamples now).channelsRefcount, rc = 0 :=
  fun _ hrc => List.eq_of_mem_replicate hrc

theorem new_txChannels_length (localId : Nat) (source : FlowSource) (n : Nat)
    (txChannels : List (BitVec 16)) (latencySamples now : Nat) :
    (RxFlow.new localId source n txChannels latencySamples now).txChannels.length = n := by
  simp [RxFlow.new]
  omega

theorem Placed.newMulticasts {cfg : SubscriberConfig} {env : ResolveEnv} {aliases : Aliases}
    {flows : List (Option RxFlow)} {es : List (String × AdvertisedBundle)} {p p' : Plan}
    (h : p.Placed flows) (hnodup : (bundleNames p.flows).Nodup) (hkeys : (es.map Prod.fst).Nodup)
    (hes : ∀ e ∈ es, e.1 ∉ bundleNames p.flows)
    (hrun : es.foldlM (fun p e => p.newMulticast cfg env aliases e) p = some p') :
    p'.Placed flows ∧ (bundleNames p'.flows).Nodup := by
  induction es generalizing p with
  | nil =>
      obtain rfl := Option.some.inj hrun
      exact ⟨h, hnodup⟩
  | cons e es ih =>
      rw [List.foldlM_cons] at hrun
      obtain ⟨p₁, h₁, hrun⟩ := Option.bind_eq_some_iff.mp hrun
      obtain ⟨hnot, hkeys'⟩ := List.nodup_cons.mp hkeys
      obtain ⟨hname, hes'⟩ := List.forall_mem_cons.mp hes
      rcases newMulticast_cases h₁ with hsame | ⟨channels, updates, latency, now, _, hupdates, rfl⟩
      · rw [hsame] at hrun
        exact ih h hnodup hkeys' hes' hrun
      · have hperm := p.addFlow_bundles (RxFlow.new (freeFlowIndex p.flows + 1) (.multicast e.1)
          e.2.txChannelsPerFlow [] latency now) e.2.mediaAddr
          (.addMulticast (freeFlowIndex p.flows) e.2 latency updates)
        have hmade : (Job.addMulticast (freeFlowIndex p.flows) e.2 latency updates).MadeFor
            (RxFlow.new (freeFlowIndex p.flows + 1) (.multicast e.1) e.2.txChannelsPerFlow [] latency
              now) := ⟨⟨_, rfl⟩, new_txChannels_length _ _ _ _ _ _, rfl⟩
        refine ih (h.addFlow (new_refcounts _ _ _ _ _ _) rfl hmade
          (bundleUpdates_serves hupdates).remote fun hnone => (by cases hnone)) ?_ hkeys'
          (fun e' he' hmem => ?_) hrun
        · refine hperm.nodup_iff.mpr (List.nodup_append.mpr ⟨hnodup, List.nodup_singleton _, ?_⟩)
          intro name hmem name' hmem' heq
          obtain rfl := List.mem_singleton.mp hmem'
          exact hname (heq ▸ hmem)
        · rcases List.mem_append.mp (hperm.subset hmem) with hmem | hmem
          · exact hes' e' he' hmem
          · exact hnot (List.mem_singleton.mp hmem ▸ List.mem_map_of_mem he')

theorem Placed.flowForChunk {cfg : SubscriberConfig} {env : ResolveEnv} {aliases : Aliases}
    {flows : List (Option RxFlow)} {addr : SocketAddr} {first : AdvertisedChannel} {n : Nat}
    {p p' : Plan} {chunk : List (Nat × AdvertisedChannel)} (h : p.Placed flows)
    (hnodup : (bundleNames p.flows).Nodup)
    (hrun : p.newFlow cfg env aliases addr first n chunk = some p') :
    p'.Placed flows ∧ (bundleNames p'.flows).Nodup := by
  obtain ⟨flow, flowName, updates, hupdates, hflow, rfl⟩ := newFlow_cases hrun
  obtain ⟨_, hslots⟩ := chunkUpdates_serves hupdates
  have hbundle : flow.bundle = none := by rw [hflow]; rfl
  have hmade : (Job.requestFlow (freeFlowIndex p.flows) first flow.txChannels flowName
      flow.latencySamples updates).MadeFor flow :=
    ⟨⟨_, _, by rw [hflow]; rfl⟩, rfl, rfl⟩
  refine ⟨h.addFlow (by rw [hflow]; exact new_refcounts _ _ _ _ _ _) rfl hmade (fun u hu => ?_)
    fun _ => ?_, ?_⟩
  · have hmem := List.mem_map_of_mem
      (f := fun u : ChannelSourceUpdate => (u.remote.localFlowIndex, u.remote.channelInFlow)) hu
    change _ ∈ updates.map _ at hmem
    rw [hslots] at hmem
    obtain ⟨c, _, hsame⟩ := List.mem_map.mp hmem
    exact (Prod.mk.inj hsame).1.symm
  · show (updates.map fun u => (u.remote.localFlowIndex, u.remote.channelInFlow)).Nodup
    rw [hslots]
    exact (List.nodup_range' _).map fun c c' hc => (Prod.mk.inj hc).2
  · refine (p.addFlow_bundles flow addr _).nodup_iff.mpr ?_
    rw [hbundle, Option.toList_none, List.append_nil]
    exact hnodup

theorem Placed.newFlows {cfg : SubscriberConfig} {env : ResolveEnv} {aliases : Aliases}
    {flows : List (Option RxFlow)} {rxChannels : Nat} {e : SocketAddr × ChannelMap} {p p' : Plan}
    (h : p.Placed flows) (hnodup : (bundleNames p.flows).Nodup)
    (hrun : p.newFlows cfg env aliases rxChannels e = some p') :
    p'.Placed flows ∧ (bundleNames p'.flows).Nodup := by
  unfold Plan.newFlows at hrun
  split at hrun
  · obtain rfl := Option.some.inj hrun
    exact ⟨h, hnodup⟩
  · obtain ⟨parts, _, hrun⟩ := Option.bind_eq_some_iff.mp hrun
    exact foldlM_inv (I := fun q : Plan => q.Placed flows ∧ (bundleNames q.flows).Nodup)
      (fun _ _ _ _ hq hstep => hq.1.flowForChunk hq.2 hstep) ⟨h, hnodup⟩ hrun

/-- Nothing is known of futures before the free slots are used. -/
theorem useFlows_jobs {env : ResolveEnv} {aliases : Aliases} {flows rest : List (Option RxFlow)}
    {needed : List Nat} {resolved : List ChannelSourceUpdate} {n : Nat} {p : Plan}
    (h : (Plan.begin env flows needed resolved).useFlows aliases n rest = some p) : p.jobs = [] := by
  have hbegin : (Plan.begin env flows needed resolved).futures = .empty := by
    refine foldl_inv (I := fun q : Plan => q.futures = .empty) (fun q lci _ hq => ?_) rfl
    unfold addAnswer
    split
    · exact hq
    split <;> exact hq
  have hfutures := useFlows_inv (I := fun q : Plan => q.futures = .empty)
    (fun q q' _ _ hq hused => by cases hused <;> exact hq) hbegin h
  rw [jobs, hfutures]
  rfl

end Plan

/-! ## The whole plan -/

/-- Everything of a plan has its place, if the channels that are connected use
slots that are there and carry what they want. -/
theorem planResolve_placed {cfg : SubscriberConfig} {env : ResolveEnv}
    {channels : List (Option ChannelSubscription)} {flows : List (Option RxFlow)} {p : Plan}
    (h : planResolve cfg env channels flows = some p)
    (hserved : ∀ chi r, remoteOf channels chi = some r → InUse flows r)
    (hbundles : (Plan.bundleNames flows).Nodup) :
    p.Placed flows ∧ (Plan.bundleNames p.flows).Nodup := by
  obtain ⟨dealiased, aliases, needed, resolved, p₁, p₂, p₃, h1, h2, h3, h4, h5, h6⟩ :=
    planResolve_steps h
  obtain ⟨hg, hneeded⟩ := planResolve_grouped h1 h2
  obtain ⟨_, hfree⟩ := Plan.useFlows_ledger hg hneeded hbundles h3
  have hv₁ := (Plan.begin_visited env needed (reuseConnected_inUse h2 hserved)).useFlows rfl h3
  have hnojobs := Plan.useFlows_jobs h3
  have hstart : p₁.Assigned [] := by
    refine ⟨fun job hjob => ?_, ?_⟩
    · rw [hnojobs] at hjob
      cases hjob
    · rw [hnojobs]
      exact List.nodup_nil
  obtain ⟨hv₂, done, hassigned⟩ := hstart.useFree_all hg hv₁ p₁.channelsPerServer.keys_nodup
    (fun _ _ => List.not_mem_nil) h4
  obtain ⟨_, _, hsame, _, _⟩ := Plan.useFree_all_same h4
  have hnames : (Plan.bundleNames p₂.flows).Nodup := by
    rw [hv₂.flowsEq]
    exact hbundles
  obtain ⟨hplaced, hnodup⟩ := (hassigned.placed hv₂).newMulticasts hnames p₂.bundles.keys_nodup
    (fun e he => by rw [hv₂.flowsEq]; exact hfree e (hsame ▸ he)) h5
  exact foldlM_inv (I := fun q : Plan => q.Placed flows ∧ (Plan.bundleNames q.flows).Nodup)
    (fun _ _ _ _ hq hstep => hq.1.newFlows hq.2 hstep) ⟨hplaced, hnodup⟩ h6

end Inferno
