import Inferno.Lib.Partial
import Inferno.ResolveSubscriptions

/-!
# What a plan is about

Every update of a plan, made at once or by a future, is for channels that had
a subscription and no connection (`planResolve_needed`).
-/

namespace Inferno

open Partial

/-! ## Channels and their aliases -/

/-- A channel with a subscription that nobody serves. -/
def Unserved (channels : List (Option ChannelSubscription)) (i : Nat) : Prop :=
  ∃ sub, channels[i]? = some (some sub) ∧ sub.remote = none

theorem mem_neededChannelIndices {channels : List (Option ChannelSubscription)} {i : Nat} :
    i ∈ neededChannelIndices channels ↔ Unserved channels i := by
  rw [neededChannelIndices, List.mem_filter, List.mem_range]
  constructor
  · rintro ⟨_, hany⟩
    rcases hi : channels[i]? with _ | _ | sub <;> rw [hi] at hany
    · cases hany
    · cases hany
    · exact ⟨sub, hi, Option.isNone_iff_eq_none.mp hany⟩
  · rintro ⟨sub, hsub, hnone⟩
    refine ⟨(List.getElem?_eq_some_iff.mp hsub).1, ?_⟩
    rw [hsub]
    simp [hnone]

/-- All the lists of aliases are of channels in `P`. -/
def Aliases.Within (P : Nat → Prop) (aliases : Aliases) : Prop :=
  ∀ ch l, aliases ch = some l → ∀ i ∈ l, P i

theorem Aliases.Within.push {P : Nat → Prop} {aliases : Aliases} (h : aliases.Within P) {i ch : Nat}
    (hch : P ch) : (aliases.push i ch).Within P := by
  intro k l hl j hj
  unfold Aliases.push at hl
  by_cases hk : k = i
  · rw [hk, Function.update_self] at hl
    obtain rfl := Option.some.inj hl
    rcases List.mem_append.mp hj with hj | hj
    · cases hi : aliases i with
      | none =>
          rw [hi] at hj
          cases hj
      | some l =>
          rw [hi] at hj
          exact h i l hi j hj
    · rw [List.mem_singleton.mp hj]
      exact hch
  · rw [Function.update_of_ne hk] at hl
    exact h k l hl j hj

theorem dealias_within {channels : List (Option ChannelSubscription)} {P : Nat → Prop}
    {l : List Nat} {aliasMap : String × String → Option Nat} {aliases aliases' : Aliases}
    {kept : List Nat} (h : dealias channels l aliasMap aliases = some (kept, aliases'))
    (hl : ∀ i ∈ l, P i) (haliases : aliases.Within P) : aliases'.Within P := by
  induction l generalizing aliasMap aliases kept with
  | nil =>
      cases h
      exact haliases
  | cons ch rest ih =>
      have hch := hl ch List.mem_cons_self
      have hrest := fun i hi => hl i (List.mem_cons_of_mem _ hi)
      rw [dealias] at h
      obtain ⟨key, _, h⟩ := Option.bind_eq_some_iff.mp h
      cases hkey : aliasMap key with
      | some existing =>
          rw [hkey] at h
          exact ih h hrest (haliases.push hch)
      | none =>
          rw [hkey] at h
          dsimp only at h
          split at h
          · cases h
          · obtain ⟨⟨kept', aliases''⟩, hrec, h⟩ := Option.bind_eq_some_iff.mp h
            cases h
            exact ih hrec hrest (haliases.push hch)

/-! ## Updates -/

/-- Each update is for a channel and its aliases. -/
def Named (aliases : Aliases) (updates : List ChannelSourceUpdate) : Prop :=
  ∀ upd ∈ updates, ∃ lci, aliases lci = some upd.localChannelIndices

theorem Named.append {aliases : Aliases} {us vs : List ChannelSourceUpdate}
    (hus : Named aliases us) (hvs : Named aliases vs) : Named aliases (us ++ vs) := by
  intro upd hupd
  rcases List.mem_append.mp hupd with h | h
  · exact hus upd h
  · exact hvs upd h

theorem Named.cons {aliases : Aliases} {upd : ChannelSourceUpdate} {us : List ChannelSourceUpdate}
    {lci : Nat} (hupd : aliases lci = some upd.localChannelIndices) (hus : Named aliases us) :
    Named aliases (upd :: us) := by
  intro upd' h
  rcases List.mem_cons.mp h with rfl | h
  · exact ⟨lci, hupd⟩
  · exact hus upd' h

theorem named_nil (aliases : Aliases) : Named aliases [] := fun _ h => by cases h

/-- One update for each of these channels, from an other end of a kind. -/
def Serves (aliases : Aliases) (Q : ChannelOtherEnd → Prop) (served : List Nat)
    (us : List ChannelSourceUpdate) : Prop :=
  List.Forall₂ (fun lci u => aliases lci = some u.localChannelIndices ∧ Q u.remote) served us

theorem Serves.named {aliases : Aliases} {Q : ChannelOtherEnd → Prop} {served : List Nat}
    {us : List ChannelSourceUpdate} (h : Serves aliases Q served us) : Named aliases us := by
  induction h with
  | nil => exact named_nil aliases
  | cons hu _ ih => exact ih.cons hu.1

theorem Serves.remote {aliases : Aliases} {Q : ChannelOtherEnd → Prop} {served : List Nat}
    {us : List ChannelSourceUpdate} (h : Serves aliases Q served us) : ∀ u ∈ us, Q u.remote := by
  induction h with
  | nil => exact fun u hu => by cases hu
  | cons hu _ ih => exact List.forall_mem_cons.mpr ⟨hu.2, ih⟩

/-- Channels are shared with those that want the same, or kept. -/
theorem reuseConnected_serves {channels : List (Option ChannelSubscription)} {aliases : Aliases}
    {l kept : List Nat} {resolved : List ChannelSourceUpdate}
    (h : reuseConnected channels aliases l = some (kept, resolved)) :
    ∃ shared, (shared ++ kept).Perm l ∧
      Serves aliases (fun r => ∃ key, connectedTo channels key = some r) shared resolved := by
  induction l generalizing kept resolved with
  | nil =>
      cases h
      exact ⟨[], .nil, .nil⟩
  | cons ch rest ih =>
      rw [reuseConnected] at h
      obtain ⟨key, _, h⟩ := Option.bind_eq_some_iff.mp h
      obtain ⟨⟨kept', resolved'⟩, hrec, h⟩ := Option.bind_eq_some_iff.mp h
      obtain ⟨shared, hperm, hserves⟩ := ih hrec
      dsimp only at h
      split at h
      · next remote hremote =>
          obtain ⟨indices, hindices, h⟩ := Option.bind_eq_some_iff.mp h
          cases h
          exact ⟨ch :: shared, hperm.cons ch, .cons ⟨hindices, key, hremote⟩ hserves⟩
      · cases h
        exact ⟨shared, List.perm_middle.trans (hperm.cons ch), hserves⟩

/-- The channels that the flow carries are served, in order. -/
theorem findInFlow_serves {aliases : Aliases} {flowIndex : Nat} {flow : RxFlow}
    {l : List (Nat × AdvertisedChannel)} {us : List ChannelSourceUpdate}
    (h : findInFlow aliases flowIndex flow l = some us) :
    ∃ served, served.Sublist (l.map Prod.fst) ∧
      Serves aliases (fun r => r.localFlowIndex = flowIndex ∧
        flow.txChannels[r.channelInFlow]? = some (some r.txChannelId)) served us := by
  induction l generalizing us with
  | nil =>
      cases h
      exact ⟨[], .slnil, .nil⟩
  | cons e rest ih =>
      obtain ⟨lci, advch⟩ := e
      rw [findInFlow] at h
      obtain ⟨found, hrec, h⟩ := Option.bind_eq_some_iff.mp h
      obtain ⟨served, hsub, hserves⟩ := ih hrec
      split at h
      · cases h
        exact ⟨served, hsub.cons lci, hserves⟩
      · next channelInFlow hfind =>
          obtain ⟨indices, hindices, h⟩ := Option.bind_eq_some_iff.mp h
          cases h
          obtain ⟨hlt, htx, _⟩ := List.findIdx?_eq_some_iff_getElem.mp hfind
          have hcarried : flow.txChannels[channelInFlow]? = some (some advch.txChannelId) :=
            List.getElem?_eq_some_iff.mpr ⟨hlt, of_decide_eq_true htx⟩
          exact ⟨lci :: served, hsub.cons_cons lci, .cons ⟨hindices, rfl, hcarried⟩ hserves⟩

theorem bundleUpdates_serves {aliases : Aliases} {flowIndex : Nat}
    {l : List (Nat × AdvertisedChannel)} {us : List ChannelSourceUpdate}
    (h : bundleUpdates aliases flowIndex l = some us) :
    Serves aliases (fun r => r.localFlowIndex = flowIndex) (l.map Prod.fst) us := by
  induction l generalizing us with
  | nil =>
      cases h
      exact .nil
  | cons e rest ih =>
      obtain ⟨lci, advch⟩ := e
      rw [bundleUpdates] at h
      obtain ⟨found, hrec, h⟩ := Option.bind_eq_some_iff.mp h
      obtain ⟨mcast, _, h⟩ := Option.bind_eq_some_iff.mp h
      obtain ⟨indices, hindices, h⟩ := Option.bind_eq_some_iff.mp h
      cases h
      exact .cons ⟨hindices, rfl⟩ (ih hrec)

/-- The slots of a chunk follow each other. -/
theorem chunkUpdates_serves {aliases : Aliases} {flowIndex i : Nat}
    {l : List (Nat × AdvertisedChannel)} {us : List ChannelSourceUpdate}
    (h : chunkUpdates aliases flowIndex i l = some us) :
    Serves aliases (fun r => r.localFlowIndex = flowIndex) (l.map Prod.fst) us ∧
      us.map (fun u => (u.remote.localFlowIndex, u.remote.channelInFlow)) =
        (List.range' i l.length).map fun c => (flowIndex, c) := by
  induction l generalizing i us with
  | nil =>
      cases h
      exact ⟨.nil, rfl⟩
  | cons e rest ih =>
      obtain ⟨lci, chadv⟩ := e
      rw [chunkUpdates] at h
      obtain ⟨indices, hindices, h⟩ := Option.bind_eq_some_iff.mp h
      obtain ⟨updates, hrec, h⟩ := Option.bind_eq_some_iff.mp h
      cases h
      obtain ⟨hserves, hslots⟩ := ih hrec
      refine ⟨.cons ⟨hindices, rfl⟩ hserves, ?_⟩
      rw [List.map_cons, hslots, List.length_cons, List.range'_succ, List.map_cons]

theorem assignFree_named {aliases : Aliases} {flows : List (Option RxFlow)}
    {l : List (Nat × AdvertisedChannel)} {free : List (Nat × Nat)} {changes changes' : FlowChanges}
    {left : List Nat} (h : assignFree aliases flows l free changes = some (left, changes'))
    (hchanges : ∀ e ∈ changes.entries, Named aliases e.2.2) :
    ∀ e ∈ changes'.entries, Named aliases e.2.2 := by
  induction l generalizing free changes left with
  | nil =>
      cases h
      exact hchanges
  | cons e rest ih =>
      obtain ⟨lci, advch⟩ := e
      cases free with
      | nil =>
          rw [assignFree] at h
          obtain ⟨⟨left', changes''⟩, hrec, h⟩ := Option.bind_eq_some_iff.mp h
          cases h
          exact ih hrec hchanges
      | cons slot free =>
          obtain ⟨flowIndex, chInFlow⟩ := slot
          rw [assignFree] at h
          obtain ⟨flow, _, h⟩ := Option.bind_eq_some_iff.mp h
          obtain ⟨indices, hindices, h⟩ := Option.bind_eq_some_iff.mp h
          dsimp only at h
          split at h
          · refine ih h fun e he => ?_
            rcases SortedMap.mem_alterList he with he | rfl | ⟨v, hv, rfl⟩
            · exact hchanges e he
            · exact (named_nil aliases).append ((named_nil aliases).cons hindices)
            · exact (hchanges _ hv).append ((named_nil aliases).cons hindices)
          · cases h

/-! ## The whole plan -/

/-- All updates of a plan are named. -/
structure Plan.Named (aliases : Aliases) (p : Plan) : Prop where
  resolved : Inferno.Named aliases p.resolved
  futures : ∀ e ∈ p.futures.entries, ∀ job ∈ e.2, Inferno.Named aliases job.updates

theorem Plan.Named.pushFuture {aliases : Aliases} {p : Plan} (h : p.Named aliases)
    {addr : SocketAddr} {job : Job} (hjob : Inferno.Named aliases job.updates) :
    (p.pushFuture addr job).Named aliases := by
  refine ⟨h.resolved, fun e he job' hjob' => ?_⟩
  rcases SortedMap.mem_alterList he with he | rfl | ⟨v, hv, rfl⟩
  · exact h.futures e he job' hjob'
  · rw [List.mem_singleton.mp hjob']
    exact hjob
  · rcases List.mem_append.mp hjob' with hjob' | hjob'
    · exact h.futures _ hv job' hjob'
    · rw [List.mem_singleton.mp hjob']
      exact hjob

theorem Plan.begin_named {aliases : Aliases} (env : ResolveEnv) (flows : List (Option RxFlow))
    (needed : List Nat) {resolved : List ChannelSourceUpdate}
    (h : Inferno.Named aliases resolved) : (Plan.begin env flows needed resolved).Named aliases := by
  suffices hfold : (needed.foldl (fun p lci => p.addAnswer lci (env.queryChan lci))
      (⟨flows, .empty, .empty, .empty, .empty, resolved, .empty⟩ : Plan)).Named aliases from
    ⟨hfold.resolved, hfold.futures⟩
  refine foldl_inv (fun p lci _ hp => ?_) ⟨h, fun e he => by cases he⟩
  unfold Plan.addAnswer
  split
  · exact hp
  split
  · exact ⟨hp.resolved, hp.futures⟩
  · exact ⟨hp.resolved, hp.futures⟩

/-- What comes of a flow that is there: nobody waits for what it carries, or
those who do are given what they find in it. -/
inductive Plan.Used (aliases : Aliases) (p : Plan) (flowIndex : Nat) (flow : RxFlow) :
    Plan → Prop where
  | unasked (hbundle : ∀ name, flow.source = .multicast name →
      p.channelsPerBundle.get? name = none) : Used aliases p flowIndex flow p
  | unicast {addr : SocketAddr} {dbcp1 : BitVec 16} {handle : Option FlowHandle}
      {channels : ChannelMap} {updates : List ChannelSourceUpdate} {found : List Nat}
      (hsource : flow.source = .unicast addr dbcp1 handle)
      (hget : p.channelsPerServer.get? addr = some channels)
      (hfind : findInFlow aliases flowIndex flow channels.entries = some updates)
      (hfound : firstIndices updates = some found) : Used aliases p flowIndex flow { p with
        channelsPerServer := p.channelsPerServer.insert addr
          (channels.filter fun lci _ => !found.contains lci)
        freeSlots := p.freeSlots.alter addr fun m => (m.getD .empty).insert flowIndex
          ((unusedSlots flow).filter fun c =>
            !updates.any fun upd => upd.remote.channelInFlow == c)
        resolved := p.resolved ++ updates }
  | multicast {name : String} {channels : ChannelMap} {updates : List ChannelSourceUpdate}
      (hsource : flow.source = .multicast name)
      (hget : p.channelsPerBundle.get? name = some channels)
      (hupdates : bundleUpdates aliases flowIndex channels.entries = some updates) :
      Used aliases p flowIndex flow
        { p with bundles := p.bundles.erase name, resolved := p.resolved ++ updates }

theorem Plan.used_of_useFlow {aliases : Aliases} {p p' : Plan} {flowIndex : Nat} {flow : RxFlow}
    (hp : p.useFlow aliases flowIndex flow = some p') : p.Used aliases flowIndex flow p' := by
  unfold Plan.useFlow at hp
  split at hp
  · next addr dbcp1 handle hsource =>
      split at hp
      · cases hp
        exact .unasked fun name hname => by rw [hsource] at hname; cases hname
      · next channels hget =>
          obtain ⟨updates, hfind, hp⟩ := Option.bind_eq_some_iff.mp hp
          obtain ⟨found, hfound, hp⟩ := Option.bind_eq_some_iff.mp hp
          obtain rfl := Option.some.inj hp
          exact .unicast hsource hget hfind hfound
  · next name hsource =>
      split at hp
      · next hget =>
          cases hp
          refine .unasked fun name' hname' => ?_
          rw [hsource] at hname'
          cases hname'
          exact hget
      · next channels hget =>
          obtain ⟨updates, hupdates, hp⟩ := Option.bind_eq_some_iff.mp hp
          obtain rfl := Option.some.inj hp
          exact .multicast hsource hget hupdates

theorem Plan.Named.used {aliases : Aliases} {p p' : Plan} (h : p.Named aliases) {flowIndex : Nat}
    {flow : RxFlow} (hp : p.Used aliases flowIndex flow p') : p'.Named aliases := by
  cases hp with
  | unasked => exact h
  | unicast hsource hget hfind hfound =>
      obtain ⟨_, _, hserves⟩ := findInFlow_serves hfind
      exact ⟨h.resolved.append hserves.named, h.futures⟩
  | multicast hsource hget hupdates =>
      exact ⟨h.resolved.append (bundleUpdates_serves hupdates).named, h.futures⟩

/-- What each flow keeps is kept by all of them. -/
theorem Plan.useFlows_inv {I : Plan → Prop} {aliases : Aliases} {flows : List (Option RxFlow)}
    {p p' : Plan} {flowIndex : Nat}
    (hstep : ∀ p p' flowIndex flow, I p → p.Used aliases flowIndex flow p' → I p') (h : I p)
    (hp : p.useFlows aliases flowIndex flows = some p') : I p' := by
  induction flows generalizing p flowIndex with
  | nil =>
      cases hp
      exact h
  | cons o flows ih =>
      cases o with
      | none => exact ih h hp
      | some flow =>
          rw [Plan.useFlows] at hp
          obtain ⟨p₁, h₁, hp⟩ := Option.bind_eq_some_iff.mp hp
          exact ih (hstep _ _ _ _ h (used_of_useFlow h₁)) hp

theorem updateJob_updates {flows : List (Option RxFlow)} {addr : SocketAddr}
    {e : Nat × List (Option (BitVec 16)) × List ChannelSourceUpdate} {job : Job}
    (h : updateJob flows addr e = some job) : job.updates = e.2.2 := by
  unfold updateJob at h
  split at h
  · cases h
    rfl
  · cases h

theorem Plan.Named.useFree {aliases : Aliases} {p p' : Plan} (h : p.Named aliases)
    {addr : SocketAddr} {channels : ChannelMap} (hp : p.useFree aliases addr channels = some p') :
    p'.Named aliases := by
  unfold Plan.useFree at hp
  split at hp
  · cases hp
    exact h
  split at hp
  · cases hp
    exact h
  obtain ⟨⟨left, changes⟩, hassign, hp⟩ := Option.bind_eq_some_iff.mp hp
  obtain ⟨futures, hfutures, hp⟩ := Option.bind_eq_some_iff.mp hp
  cases hp
  refine ⟨h.resolved, fun e he job hjob => ?_⟩
  rcases SortedMap.mem_insert he with he | rfl
  · exact h.futures e he job hjob
  · obtain ⟨change, hchange, hjob⟩ := mem_of_mapM hfutures job hjob
    rw [updateJob_updates hjob]
    exact assignFree_named hassign (fun e he => by cases he) change hchange

theorem Plan.Named.putFlow {aliases : Aliases} {p : Plan} (h : p.Named aliases) (flow : RxFlow) :
    (p.putFlow flow).Named aliases := ⟨h.resolved, h.futures⟩

theorem Plan.Named.newMulticast {cfg : SubscriberConfig} {env : ResolveEnv} {aliases : Aliases}
    {p p' : Plan} (h : p.Named aliases) {e : String × AdvertisedBundle}
    (hp : p.newMulticast cfg env aliases e = some p') : p'.Named aliases := by
  unfold Plan.newMulticast at hp
  dsimp only at hp
  split at hp
  · cases hp
    exact h
  · obtain ⟨needed, _, hp⟩ := Option.bind_eq_some_iff.mp hp
    obtain ⟨updates, hupdates, hp⟩ := Option.bind_eq_some_iff.mp hp
    cases hp
    exact (h.putFlow _).pushFuture (bundleUpdates_serves hupdates).named

theorem Plan.Named.newFlow {cfg : SubscriberConfig} {env : ResolveEnv} {aliases : Aliases}
    {addr : SocketAddr} {first : AdvertisedChannel} {n : Nat} {p p' : Plan} (h : p.Named aliases)
    {chunk : List (Nat × AdvertisedChannel)}
    (hp : p.newFlow cfg env aliases addr first n chunk = some p') : p'.Named aliases := by
  unfold Plan.newFlow at hp
  obtain ⟨updates, hupdates, hp⟩ := Option.bind_eq_some_iff.mp hp
  cases hp
  exact (h.putFlow _).pushFuture (chunkUpdates_serves hupdates).1.named

theorem Plan.Named.newFlows {cfg : SubscriberConfig} {env : ResolveEnv} {aliases : Aliases}
    {rxChannels : Nat} {p p' : Plan} (h : p.Named aliases) {e : SocketAddr × ChannelMap}
    (hp : p.newFlows cfg env aliases rxChannels e = some p') : p'.Named aliases := by
  unfold Plan.newFlows at hp
  split at hp
  · cases hp
    exact h
  · obtain ⟨parts, _, hp⟩ := Option.bind_eq_some_iff.mp hp
    exact foldlM_inv (fun _ _ _ _ hp => hp.newFlow) h hp

/-- The steps of a plan, taken apart. -/
theorem planResolve_steps {cfg : SubscriberConfig} {env : ResolveEnv}
    {channels : List (Option ChannelSubscription)} {flows : List (Option RxFlow)} {p : Plan}
    (h : planResolve cfg env channels flows = some p) :
    ∃ dealiased aliases needed resolved p₁ p₂ p₃,
      dealias channels (neededChannelIndices channels) (fun _ => none) (fun _ => none) =
        some (dealiased, aliases) ∧
      reuseConnected channels aliases dealiased = some (needed, resolved) ∧
      (Plan.begin env flows needed resolved).useFlows aliases 0 flows = some p₁ ∧
      p₁.channelsPerServer.entries.foldlM (fun p e => p.useFree aliases e.1 e.2) p₁ = some p₂ ∧
      p₂.bundles.entries.foldlM (fun p e => p.newMulticast cfg env aliases e) p₂ = some p₃ ∧
      p₃.channelsPerServer.entries.foldlM
        (fun p e => p.newFlows cfg env aliases channels.length e) p₃ = some p := by
  unfold planResolve at h
  obtain ⟨⟨dealiased, aliases⟩, h1, h⟩ := Option.bind_eq_some_iff.mp h
  obtain ⟨⟨needed, resolved⟩, h2, h⟩ := Option.bind_eq_some_iff.mp h
  obtain ⟨p₁, h3, h⟩ := Option.bind_eq_some_iff.mp h
  obtain ⟨p₂, h4, h⟩ := Option.bind_eq_some_iff.mp h
  obtain ⟨p₃, h5, h⟩ := Option.bind_eq_some_iff.mp h
  exact ⟨dealiased, aliases, needed, resolved, p₁, p₂, p₃, h1, h2, h3, h4, h5, h⟩

/-- The updates of a plan, one step after the other. -/
theorem planResolve_named {cfg : SubscriberConfig} {env : ResolveEnv}
    {channels : List (Option ChannelSubscription)} {flows : List (Option RxFlow)}
    {dealiased needed : List Nat} {aliases : Aliases} {resolved : List ChannelSourceUpdate}
    {p₁ p₂ p₃ p : Plan} (h2 : reuseConnected channels aliases dealiased = some (needed, resolved))
    (h3 : (Plan.begin env flows needed resolved).useFlows aliases 0 flows = some p₁)
    (h4 : p₁.channelsPerServer.entries.foldlM (fun p e => p.useFree aliases e.1 e.2) p₁ = some p₂)
    (h5 : p₂.bundles.entries.foldlM (fun p e => p.newMulticast cfg env aliases e) p₂ = some p₃)
    (h6 : p₃.channelsPerServer.entries.foldlM
      (fun p e => p.newFlows cfg env aliases channels.length e) p₃ = some p) : p.Named aliases := by
  obtain ⟨_, _, hserves⟩ := reuseConnected_serves h2
  have hp₁ : p₁.Named aliases := Plan.useFlows_inv (fun _ _ _ _ hp hused => hp.used hused)
    (Plan.begin_named env flows needed hserves.named) h3
  have hp₂ : p₂.Named aliases := foldlM_inv (fun _ _ _ _ hp => hp.useFree) hp₁ h4
  have hp₃ : p₃.Named aliases := foldlM_inv (fun _ _ _ _ hp => hp.newMulticast) hp₂ h5
  exact foldlM_inv (fun _ _ _ _ hp => hp.newFlows) hp₃ h6

/-- A plan's updates are for channels that nobody served. -/
theorem planResolve_needed {cfg : SubscriberConfig} {env : ResolveEnv}
    {channels : List (Option ChannelSubscription)} {flows : List (Option RxFlow)} {p : Plan}
    (h : planResolve cfg env channels flows = some p) :
    (∀ upd ∈ p.resolved, ∀ chi ∈ upd.localChannelIndices, Unserved channels chi) ∧
      ∀ e ∈ p.futures.entries, ∀ job ∈ e.2, ∀ upd ∈ job.updates,
        ∀ chi ∈ upd.localChannelIndices, Unserved channels chi := by
  obtain ⟨dealiased, aliases, needed, resolved, p₁, p₂, p₃, h1, h2, h3, h4, h5, h6⟩ :=
    planResolve_steps h
  have hwithin : aliases.Within (Unserved channels) :=
    dealias_within h1 (fun i hi => mem_neededChannelIndices.mp hi) fun _ _ hnone => by cases hnone
  have hp := planResolve_named h2 h3 h4 h5 h6
  have hall : ∀ us, Inferno.Named aliases us → ∀ upd ∈ us, ∀ chi ∈ upd.localChannelIndices,
      Unserved channels chi := by
    intro us hus upd hupd
    obtain ⟨lci, hlci⟩ := hus upd hupd
    exact hwithin lci _ hlci
  exact ⟨hall _ hp.resolved, fun e he job hjob => hall _ (hp.futures e he job hjob)⟩

end Inferno
