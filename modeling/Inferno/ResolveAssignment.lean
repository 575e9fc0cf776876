import Inferno.RefcountsWorld

/-!
# A resolution is a proper assignment

The aliases partition the channels that nobody serves by host and name, and
the assertion on their keys holds (`dealias_partition`). A request to change a
flow leaves the slots alone that somebody uses (`planResolve_asks`). With what
`ResolveLedger` and `ResolveSlots` say of updates, every resolution from a
state that the subscriber can be in is a `ProperAssignment`.
-/

namespace Inferno

open Partial

/-! ## Groups by host and name -/

/-- Each channel that nobody serves is in one group, with the others of its
host and name. -/
structure Aliases.Partition (channels : List (Option ChannelSubscription)) (aliases : Aliases) :
    Prop where
  unserved : ∀ k l, aliases k = some l → ∀ i ∈ l, Unserved channels i
  covered : ∀ i, Unserved channels i → ∃ k l, aliases k = some l ∧ i ∈ l
  together : ∀ j k l m i i', aliases j = some l → aliases k = some m → i ∈ l → i' ∈ m →
    (j = k ↔ wanted channels i = wanted channels i')
  head : ∀ k l, aliases k = some l → l.head? = some k
  nodup : ∀ k l, aliases k = some l → l.Nodup

namespace Aliases

theorem push_isSome {aliases : Aliases} {i ch k : Nat} :
    (aliases.push i ch k).isSome ↔ k = i ∨ (aliases k).isSome := by
  by_cases hk : k = i
  · simp [hk, push_self]
  · simp [hk, push_of_ne]

theorem mem_push_self (aliases : Aliases) (i ch : Nat) :
    ∃ l, aliases.push i ch i = some l ∧ ch ∈ l := ⟨_, push_self aliases i ch, by simp⟩

/-- Nobody leaves a group. -/
theorem mem_push_of_mem {aliases : Aliases} {k j : Nat} {m : List Nat} (hm : aliases k = some m)
    (hj : j ∈ m) (i ch : Nat) : ∃ l, aliases.push i ch k = some l ∧ j ∈ l := by
  by_cases hk : k = i
  · subst hk
    exact ⟨_, push_self aliases k ch, by simp [hm, hj]⟩
  · exact ⟨m, by rw [push_of_ne _ _ hk, hm], hj⟩

/-- The channels that have been dealiased so far. -/
structure Dealiased (channels : List (Option ChannelSubscription)) (done : List Nat)
    (aliasMap : String × String → Option Nat) (aliases : Aliases) : Prop where
  grouped : aliases.Grouped
  among : ∀ k l, aliases k = some l → ∀ i ∈ l, i ∈ done ∧ wanted channels i = wanted channels k
  covered : ∀ i ∈ done, ∃ k l, aliases k = some l ∧ i ∈ l
  entered : ∀ key k, aliasMap key = some k ↔ (aliases k).isSome ∧ wanted channels k = some key

namespace Dealiased

variable {channels : List (Option ChannelSubscription)} {done : List Nat}
  {aliasMap : String × String → Option Nat} {aliases : Aliases}

theorem nothing (channels : List (Option ChannelSubscription)) :
    Dealiased channels [] (fun _ => none) fun _ => none where
  grouped := ⟨nofun, nofun, nofun⟩
  among := nofun
  covered := nofun
  entered := by simp

theorem mem_self (h : Dealiased channels done aliasMap aliases) {k : Nat} {l : List Nat}
    (hl : aliases k = some l) : k ∈ l := List.mem_of_mem_head? (h.grouped.head k l hl)

/-- What the code asserts. -/
theorem vacant (h : Dealiased channels done aliasMap aliases) {ch : Nat} (hch : ch ∉ done) :
    aliases ch = none := by
  cases hl : aliases ch with
  | none => rfl
  | some l => exact absurd (h.among ch l hl ch (h.mem_self hl)).1 hch

theorem not_mem (h : Dealiased channels done aliasMap aliases) {ch : Nat} (hch : ch ∉ done) :
    ∀ k l, aliases k = some l → ch ∉ l := fun k l hl hmem => hch (h.among k l hl ch hmem).1

/-- The members of the groups, once a channel of the same host and name has
been pushed to one. -/
theorem among_push (h : Dealiased channels done aliasMap aliases) {ch i : Nat}
    (hsame : wanted channels ch = wanted channels i) :
    ∀ k l, aliases.push i ch k = some l → ∀ j ∈ l,
      j ∈ done ++ [ch] ∧ wanted channels j = wanted channels k := by
  intro k l hl j hj
  rcases mem_push hl hj with ⟨rfl, rfl⟩ | ⟨m, hm, hj⟩
  · exact ⟨by simp, hsame⟩
  · obtain ⟨hdone, hwanted⟩ := h.among k m hm j hj
    exact ⟨by simp [hdone], hwanted⟩

theorem covered_push (h : Dealiased channels done aliasMap aliases) (ch i : Nat) :
    ∀ j ∈ done ++ [ch], ∃ k l, aliases.push i ch k = some l ∧ j ∈ l := by
  intro j hj
  rcases List.mem_append.mp hj with hj | hj
  · obtain ⟨k, m, hm, hmem⟩ := h.covered j hj
    exact ⟨k, mem_push_of_mem hm hmem i ch⟩
  · rw [List.mem_singleton.mp hj]
    exact ⟨i, mem_push_self aliases i ch⟩

/-- A channel joins the group of its host and name. -/
theorem join (h : Dealiased channels done aliasMap aliases) {ch e : Nat} {key : String × String}
    (hch : ch ∉ done) (hkey : wanted channels ch = some key) (he : aliasMap key = some e) :
    Dealiased channels (done ++ [ch]) aliasMap (aliases.push e ch) := by
  obtain ⟨hsome, hwanted⟩ := (h.entered key e).mp he
  refine ⟨h.grouped.push (h.not_mem hch) (.inl hsome), h.among_push (hkey.trans hwanted.symm),
    h.covered_push ch e, fun key' k => ?_⟩
  rw [h.entered, push_isSome]
  constructor
  · rintro ⟨hk, hwanted'⟩
    exact ⟨.inr hk, hwanted'⟩
  · rintro ⟨rfl | hk, hwanted'⟩
    · exact ⟨hsome, hwanted'⟩
    · exact ⟨hk, hwanted'⟩

/-- The first channel of its host and name is a group of its own. -/
theorem lead (h : Dealiased channels done aliasMap aliases) {ch : Nat} {key : String × String}
    (hch : ch ∉ done) (hkey : wanted channels ch = some key) (hnone : aliasMap key = none) :
    Dealiased channels (done ++ [ch]) (Function.update aliasMap key (some ch))
      (aliases.push ch ch) := by
  refine ⟨h.grouped.push (h.not_mem hch) (.inr rfl), h.among_push rfl, h.covered_push ch ch,
    fun key' k => ?_⟩
  rw [push_isSome]
  by_cases hsame : key' = key
  · subst hsame
    rw [Function.update_self, Option.some.injEq]
    constructor
    · rintro rfl
      exact ⟨.inl rfl, hkey⟩
    · rintro ⟨rfl | hk, hwanted⟩
      · rfl
      · rw [(h.entered key' k).mpr ⟨hk, hwanted⟩] at hnone
        cases hnone
  · rw [Function.update_of_ne hsame, h.entered]
    constructor
    · rintro ⟨hk, hwanted⟩
      exact ⟨.inr hk, hwanted⟩
    · rintro ⟨rfl | hk, hwanted⟩
      · rw [hkey] at hwanted
        exact absurd (Option.some.inj hwanted).symm hsame
      · exact ⟨hk, hwanted⟩

/-- Dealiasing comes to its end. -/
theorem run (h : Dealiased channels done aliasMap aliases) {l : List Nat}
    (hl : (done ++ l).Nodup) (hwanted : ∀ i ∈ l, (wanted channels i).isSome) :
    ∃ kept aliasMap' aliases', dealias channels l aliasMap aliases = some (kept, aliases') ∧
      Dealiased channels (done ++ l) aliasMap' aliases' := by
  induction l generalizing done aliasMap aliases with
  | nil => exact ⟨[], aliasMap, aliases, rfl, by rwa [List.append_nil]⟩
  | cons ch rest ih =>
      obtain ⟨key, hkey⟩ := Option.isSome_iff_exists.mp (hwanted ch List.mem_cons_self)
      have hrest : ∀ i ∈ rest, (wanted channels i).isSome := fun i hi =>
        hwanted i (List.mem_cons_of_mem _ hi)
      have hch : ch ∉ done := fun hmem =>
        (List.nodup_append.mp hl).2.2 ch hmem ch List.mem_cons_self rfl
      rw [List.append_cons] at hl ⊢
      rw [dealias, hkey]
      dsimp only [Option.bind_eq_bind, Option.bind_some]
      cases he : aliasMap key with
      | some e => exact ih (h.join hch hkey he) hl hrest
      | none =>
          obtain ⟨kept, aliasMap', aliases', hrun, hend⟩ := ih (h.lead hch hkey he) hl hrest
          rw [h.vacant hch, hrun]
          exact ⟨ch :: kept, aliasMap', aliases', rfl, hend⟩

end Dealiased

end Aliases

theorem Unserved.wanted_isSome {channels : List (Option ChannelSubscription)} {i : Nat}
    (h : Unserved channels i) : (wanted channels i).isSome := by
  obtain ⟨sub, hsub, _⟩ := h
  simp [wanted, hsub]

/-- The aliases of a resolution; no assertion fails on the way. -/
theorem dealias_partition (channels : List (Option ChannelSubscription)) :
    ∃ kept aliases, dealias channels (neededChannelIndices channels) (fun _ => none)
      (fun _ => none) = some (kept, aliases) ∧ aliases.Partition channels := by
  have hnodup : (neededChannelIndices channels).Nodup := List.nodup_range.filter _
  obtain ⟨kept, aliasMap, aliases, hrun, hend⟩ := (Aliases.Dealiased.nothing channels).run hnodup
    fun i hi => (mem_neededChannelIndices.mp hi).wanted_isSome
  rw [List.nil_append] at hend
  have hunserved : ∀ k l, aliases k = some l → ∀ i ∈ l, Unserved channels i := fun k l hl i hi =>
    mem_neededChannelIndices.mp (hend.among k l hl i hi).1
  refine ⟨kept, aliases, hrun, hunserved, fun i hi =>
    hend.covered i (mem_neededChannelIndices.mpr hi), fun j k l m i i' hl hm hi hi' => ?_,
    hend.grouped.head, hend.grouped.nodup⟩
  rw [(hend.among j l hl i hi).2, (hend.among k m hm i' hi').2]
  constructor
  · rintro rfl
    rfl
  · intro hsame
    obtain ⟨key, hkey⟩ := Option.isSome_iff_exists.mp
      (hunserved j l hl j (hend.mem_self hl)).wanted_isSome
    have hj := (hend.entered key j).mpr ⟨by simp [hl], hkey⟩
    have hk := (hend.entered key k).mpr ⟨by simp [hm], hsame ▸ hkey⟩
    exact Option.some.inj (hj.symm.trans hk)

/-! ## Requests to change flows -/

/-- A request to change a flow is for the flow of its updates. It asks for the
transmitter channel of each update at its slot, and for what there is at the
slots that somebody uses. -/
def Job.Asks (flows : List (Option RxFlow)) : Job → Prop
  | .updateFlow serverAddr dbcp1 handle newTxChannels updates => ∃ (f : Nat) (flow : RxFlow),
      flows[f]?.join = some flow ∧ flow.source = .unicast serverAddr dbcp1 (some handle) ∧
      newTxChannels.length = flow.txChannels.length ∧
      (∀ c, 0 < flow.channelsRefcount.getD c 0 → newTxChannels[c]? = flow.txChannels[c]?) ∧
      ∀ u ∈ updates, u.remote.localFlowIndex = f ∧
        newTxChannels[u.remote.channelInFlow]? = some (some u.remote.txChannelId)
  | .addMulticast .. | .requestFlow .. => True

/-- The changes to one flow, when its slots among `free` may be taken and those
`ahead` have not been. -/
structure ChangeRight (flow : RxFlow) (free ahead : List (Nat × Nat))
    (e : Nat × List (Option (BitVec 16)) × List ChannelSourceUpdate) : Prop where
  length : e.2.1.length = flow.txChannels.length
  taken : ∃ c, (e.1, c) ∈ free
  others : ∀ c, (e.1, c) ∈ free ∨ e.2.1[c]? = flow.txChannels[c]?
  asked : ∀ u ∈ e.2.2, u.remote.localFlowIndex = e.1 ∧ u.slot ∉ ahead ∧
    e.2.1[u.remote.channelInFlow]? = some (some u.remote.txChannelId)

theorem ChangeRight.later {flow : RxFlow} {free ahead : List (Nat × Nat)} {slot : Nat × Nat}
    {e : Nat × List (Option (BitVec 16)) × List ChannelSourceUpdate}
    (h : ChangeRight flow free (slot :: ahead) e) : ChangeRight flow free ahead e where
  length := h.length
  taken := h.taken
  others := h.others
  asked u hu := by
    obtain ⟨hindex, hnot, htx⟩ := h.asked u hu
    exact ⟨hindex, fun hmem => hnot (List.mem_cons_of_mem _ hmem), htx⟩

/-- One more slot is taken. -/
theorem ChangeRight.take {flow : RxFlow} {free ahead : List (Nat × Nat)} {f c : Nat}
    {txChannels : List (Option (BitVec 16))} {updates : List ChannelSourceUpdate}
    (hlength : txChannels.length = flow.txChannels.length)
    (hothers : ∀ c, (f, c) ∈ free ∨ txChannels[c]? = flow.txChannels[c]?)
    (hasked : ∀ u ∈ updates, u.remote.localFlowIndex = f ∧ u.slot ∉ (f, c) :: ahead ∧
      txChannels[u.remote.channelInFlow]? = some (some u.remote.txChannelId))
    (hfree : (f, c) ∈ free) (hahead : (f, c) ∉ ahead) (hc : c < txChannels.length)
    (indices : List Nat) (txChannelId : BitVec 16) :
    ChangeRight flow free ahead
      (f, txChannels.set c (some txChannelId), updates ++ [⟨indices, ⟨f, c, txChannelId⟩⟩]) where
  length := by simp [hlength]
  taken := ⟨c, hfree⟩
  others c' := by
    by_cases hsame : c = c'
    · exact .inl (hsame ▸ hfree)
    · simpa [List.getElem?_set_ne hsame] using hothers c'
  asked u hu := by
    rcases List.mem_append.mp hu with hu | hu
    · obtain ⟨hindex, hnot, htx⟩ := hasked u hu
      refine ⟨hindex, fun hmem => hnot (List.mem_cons_of_mem _ hmem), ?_⟩
      have hsame : c ≠ u.remote.channelInFlow := by
        rintro rfl
        have hslot : u.slot = (f, u.remote.channelInFlow) := Prod.ext hindex rfl
        exact hnot (hslot ▸ List.mem_cons_self)
      rw [List.getElem?_set_ne hsame, htx]
    · rw [List.mem_singleton.mp hu]
      exact ⟨rfl, hahead, by simp [hc]⟩

theorem assignFree_changes {aliases : Aliases} {flows : List (Option RxFlow)}
    {l : List (Nat × AdvertisedChannel)} {free ahead : List (Nat × Nat)}
    {changes changes' : FlowChanges} {left : List Nat}
    (h : assignFree aliases flows l ahead changes = some (left, changes'))
    (hnodup : ahead.Nodup) (hsub : ahead ⊆ free)
    (hchanges : ∀ e ∈ changes.entries, ∃ flow, flows[e.1]?.join = some flow ∧
      ChangeRight flow free ahead e) :
    ∀ e ∈ changes'.entries, ∃ flow, flows[e.1]?.join = some flow ∧ ChangeRight flow free [] e := by
  induction l generalizing ahead changes left with
  | nil =>
      cases h
      intro e he
      obtain ⟨flow, hflow, hright⟩ := hchanges e he
      exact ⟨flow, hflow, ⟨hright.length, hright.taken, hright.others, fun u hu =>
        ⟨(hright.asked u hu).1, List.not_mem_nil, (hright.asked u hu).2.2⟩⟩⟩
  | cons e rest ih =>
      obtain ⟨lci, advch⟩ := e
      cases ahead with
      | nil =>
          rw [assignFree] at h
          obtain ⟨⟨left', changes''⟩, hrec, h⟩ := Option.bind_eq_some_iff.mp h
          cases h
          exact ih hrec hnodup hsub hchanges
      | cons slot ahead =>
          obtain ⟨f, c⟩ := slot
          obtain ⟨hahead, hnodup'⟩ := List.nodup_cons.mp hnodup
          obtain ⟨hfree, hsub'⟩ := List.cons_subset.mp hsub
          rw [assignFree] at h
          obtain ⟨flow, hflow, h⟩ := Option.bind_eq_some_iff.mp h
          obtain ⟨indices, _, h⟩ := Option.bind_eq_some_iff.mp h
          dsimp only at h
          split at h
          swap
          · cases h
          next hlt =>
          have hc : c < flow.txChannels.length := by
            cases hget : changes.get? f with
            | none => simpa [hget] using hlt
            | some v =>
                obtain ⟨flow', hflow', hright⟩ := hchanges _ (SortedMap.mem_of_get? hget)
                obtain rfl := Option.some.inj (hflow.symm.trans hflow')
                have hlen := hright.length
                simp only [hget, Option.getD_some] at hlt
                dsimp only at hlen
                omega
          refine ih h hnodup' hsub' fun e he => ?_
          rcases SortedMap.mem_alterList he with he | rfl | ⟨v, hv, rfl⟩
          · obtain ⟨flow', hflow', hright⟩ := hchanges e he
            exact ⟨flow', hflow', hright.later⟩
          · have hnone : ∀ u ∈ ([] : List ChannelSourceUpdate), u.remote.localFlowIndex = f ∧
                u.slot ∉ (f, c) :: ahead ∧
                flow.txChannels[u.remote.channelInFlow]? = some (some u.remote.txChannelId) :=
              fun u hu => by cases hu
            exact ⟨flow, hflow, .take rfl (fun _ => .inr rfl) hnone hfree hahead hc indices _⟩
          · obtain ⟨flow', hflow', hright⟩ := hchanges _ hv
            obtain rfl := Option.some.inj (hflow.symm.trans hflow')
            refine ⟨flow, hflow, .take hright.length hright.others hright.asked hfree hahead ?_
              indices _⟩
            rw [hright.length]
            exact hc

namespace Plan

theorem useFree_asks {aliases : Aliases} {flows : List (Option RxFlow)} {n : Nat} {p p' : Plan}
    (hv : p.Visited flows n) {addr : SocketAddr} {channels : ChannelMap}
    (hrun : p.useFree aliases addr channels = some p') (h : ∀ job ∈ p.jobs, job.Asks flows) :
    ∀ job ∈ p'.jobs, job.Asks flows := by
  unfold Plan.useFree at hrun
  split at hrun
  · obtain rfl := Option.some.inj hrun
    exact h
  split at hrun
  · obtain rfl := Option.some.inj hrun
    exact h
  next freeSlots hget =>
  obtain ⟨⟨left, changes⟩, hassign, hrun⟩ := Option.bind_eq_some_iff.mp hrun
  obtain ⟨js, hjs, hrun⟩ := Option.bind_eq_some_iff.mp hrun
  obtain rfl := Option.some.inj hrun
  rw [hv.flowsEq] at hassign hjs
  have hnodup : (slotsOf freeSlots).Nodup := slotsOf_nodup fun e he => by
    obtain ⟨_, ⟨flow, _, _, _, _, hsub⟩, _⟩ := hv.free addr freeSlots hget e he
    exact (unusedSlots_nodup flow).sublist hsub
  have hchanges := assignFree_changes hassign hnodup (List.Subset.refl (slotsOf freeSlots)) nofun
  intro job hjob
  obtain ⟨e, he, hjob⟩ := mem_jobs.mp hjob
  rcases SortedMap.mem_insert he with he | rfl
  · exact h job (mem_jobs.mpr ⟨e, he, hjob⟩)
  obtain ⟨change, hchange, hmade⟩ := mem_of_mapM hjs job hjob
  obtain ⟨flow, hflow, hright⟩ := hchanges change hchange
  obtain ⟨c, hc⟩ := hright.taken
  obtain ⟨flow', dbcp1, handle, hflow', hsource, _⟩ := hv.freeSlot ⟨freeSlots, hget, hc⟩
  obtain rfl := Option.some.inj (hflow.symm.trans hflow')
  unfold updateJob at hmade
  rw [hflow, Option.map_some, hsource] at hmade
  cases handle with
  | none => cases hmade
  | some handle =>
      obtain rfl := Option.some.inj hmade
      refine ⟨change.1, flow, hflow, hsource, hright.length, fun c hused => ?_, fun u hu => ?_⟩
      · rcases hright.others c with hfree | hsame
        · obtain ⟨flow', _, _, hflow', _, hunused, _⟩ := hv.freeSlot ⟨freeSlots, hget, hfree⟩
          obtain rfl := Option.some.inj (hflow.symm.trans hflow')
          have hle := (mem_unusedSlots.mp hunused).2
          dsimp only at hle
          omega
        · exact hsame
      · obtain ⟨hindex, _, htx⟩ := hright.asked u hu
        exact ⟨hindex, htx⟩

/-- A flow that is added comes with a request of another kind. -/
theorem addFlow_asks {flows : List (Option RxFlow)} {p : Plan} (h : ∀ job ∈ p.jobs, job.Asks flows)
    (flow : RxFlow) (addr : SocketAddr) {job : Job} (hjob : job.Asks flows) :
    ∀ job' ∈ (p.addFlow flow addr job).jobs, job'.Asks flows := by
  intro job' hmem
  rcases List.mem_append.mp ((p.addFlow_jobs flow addr job).subset hmem) with hmem | hmem
  · exact h job' hmem
  · rw [List.mem_singleton.mp hmem]
    exact hjob

theorem newFlows_asks {cfg : SubscriberConfig} {env : ResolveEnv} {aliases : Aliases}
    {flows : List (Option RxFlow)} {rxChannels : Nat} {e : SocketAddr × ChannelMap} {p p' : Plan}
    (h : ∀ job ∈ p.jobs, job.Asks flows) (hrun : p.newFlows cfg env aliases rxChannels e = some p') :
    ∀ job ∈ p'.jobs, job.Asks flows := by
  unfold Plan.newFlows at hrun
  split at hrun
  · obtain rfl := Option.some.inj hrun
    exact h
  · obtain ⟨parts, _, hrun⟩ := Option.bind_eq_some_iff.mp hrun
    refine foldlM_inv (I := fun q : Plan => ∀ job ∈ q.jobs, job.Asks flows)
      (fun q chunk q' _ hq hstep => ?_) h hrun
    obtain ⟨flow, _, _, _, _, rfl⟩ := newFlow_cases hstep
    exact addFlow_asks hq flow _ trivial

end Plan

theorem planResolve_asks {cfg : SubscriberConfig} {env : ResolveEnv}
    {channels : List (Option ChannelSubscription)} {flows : List (Option RxFlow)} {p : Plan}
    (h : planResolve cfg env channels flows = some p)
    (hserved : ∀ chi r, remoteOf channels chi = some r → InUse flows r) :
    ∀ job ∈ p.jobs, job.Asks flows := by
  obtain ⟨dealiased, aliases, needed, resolved, p₁, p₂, p₃, h1, h2, h3, h4, h5, h6⟩ :=
    planResolve_steps h
  have hv₁ := (Plan.begin_visited env needed (reuseConnected_inUse h2 hserved)).useFlows rfl h3
  have hnojobs := Plan.useFlows_jobs h3
  have hp₁ : ∀ job ∈ p₁.jobs, job.Asks flows := by
    rw [hnojobs]
    nofun
  obtain ⟨_, hp₂⟩ := foldlM_inv
    (I := fun q : Plan => q.Visited flows flows.length ∧ ∀ job ∈ q.jobs, job.Asks flows)
    (fun _ _ _ _ hq hstep => ⟨hq.1.useFree hstep, Plan.useFree_asks hq.1 hstep hq.2⟩)
    ⟨hv₁, hp₁⟩ h4
  have hp₃ := foldlM_inv (I := fun q : Plan => ∀ job ∈ q.jobs, job.Asks flows)
    (fun q e q' _ hq hstep => by
      rcases Plan.newMulticast_cases hstep with rfl | ⟨_, _, _, _, _, _, rfl⟩
      · exact hq
      · exact Plan.addFlow_asks hq _ _ trivial) hp₂ h5
  exact foldlM_inv (I := fun q : Plan => ∀ job ∈ q.jobs, job.Asks flows)
    (fun _ _ _ _ hq hstep => Plan.newFlows_asks hq hstep) hp₃ h6

/-! ## The whole resolution -/

/-- What a plan says of the channels and flows it is made for. -/
structure ProperAssignment (channels : List (Option ChannelSubscription))
    (flows : List (Option RxFlow)) (p : Plan) : Prop where
  unserved : ∀ u ∈ p.updates, ∀ i ∈ u.localChannelIndices, Unserved channels i
  once : (p.updates.flatMap ChannelSourceUpdate.localChannelIndices).Nodup
  there : ∀ u ∈ p.updates, (flowAt p.flows u.remote).isSome
  apart : ∀ u ∈ p.updates, ∀ v ∈ p.updates, ∀ flow, flowAt p.flows u.remote = some flow →
    flow.bundle = none → u.remote.txChannelId ≠ v.remote.txChannelId → u.slot ≠ v.slot
  kept : ∀ u ∈ p.updates, ∀ flow, flowAt flows u.remote = some flow → flow.bundle = none →
    0 < flow.channelsRefcount.getD u.remote.channelInFlow 0 →
      flow.txChannels[u.remote.channelInFlow]? = some (some u.remote.txChannelId)
  asked : ∀ job ∈ p.jobs, job.Asks flows

theorem planResolve_proper {cfg : SubscriberConfig} {env : ResolveEnv}
    {channels : List (Option ChannelSubscription)} {flows : List (Option RxFlow)} {p : Plan}
    (h : planResolve cfg env channels flows = some p)
    (hserved : ∀ chi r, remoteOf channels chi = some r → InUse flows r)
    (hbundles : (Plan.bundleNames flows).Nodup) : ProperAssignment channels flows p := by
  obtain ⟨hplaced, _⟩ := planResolve_placed h hserved hbundles
  refine ⟨planResolve_unserved h, planResolve_nodup h hbundles, hplaced.targets,
    fun u hu v hv flow hflow hbundle hne hslot => hne ?_, hplaced.used, planResolve_asks h hserved⟩
  obtain ⟨hindex, hchannel⟩ := Prod.mk.inj hslot
  exact hplaced.compatible_of_mem hu hv flow hflow hbundle hindex hchannel

open RxWorld in
/-- In every run, and whatever mDNS answers: the channels are grouped without a
failed assertion, what is planned is a proper assignment, and no step changes
what a unicast slot in use carries. -/
theorem resolution_proper (cfg : RxConfig) (n : Nat) (saved : List Subscriber.SavedChannelState)
    (worker : Subscriber)
    (hload : (Subscriber.new n).loadState cfg.toSubscriberConfig saved = some worker)
    (receiver : FlowsReceiver) (w : RxWorld)
    (h : Reaches cfg (fun _ _ => True) (start worker receiver) w) (env : ResolveEnv) :
    (∃ kept aliases, dealias w.worker.channels (neededChannelIndices w.worker.channels)
        (fun _ => none) (fun _ => none) = some (kept, aliases) ∧
      aliases.Partition w.worker.channels) ∧
    (∀ p, planResolve cfg.toSubscriberConfig env w.worker.channels w.worker.flows = some p →
      ProperAssignment w.worker.channels w.worker.flows p) ∧
    ∀ e w', w.step cfg e = some w' → KeepsUsed w.worker w'.worker := by
  have hinv := reaches_refInv hload h
  exact ⟨dealias_partition w.worker.channels,
    fun p hp => planResolve_proper hp (fun _ _ hr => hinv.exact.inUse hr) hinv.bundles,
    fun _ _ hrun => (hinv.step hrun).2⟩

open RxWorld in
/-- Two channels of one host and name are in the one update of a plan. -/
theorem resolution_proper_aliases :
    ∃ worker p u, (Subscriber.new 2).loadState sampleRxConfig.toSubscriberConfig twoSaved =
        some worker ∧
      planResolve sampleRxConfig.toSubscriberConfig sampleAnswers worker.channels worker.flows =
        some p ∧
      p.updates = [u] ∧ u.localChannelIndices = [0, 1] ∧
      ProperAssignment worker.channels worker.flows p := by
  obtain ⟨worker, hload⟩ := Option.isSome_iff_exists.mp (show ((Subscriber.new 2).loadState
    sampleRxConfig.toSubscriberConfig twoSaved).isSome by decide)
  have hplans : (((Subscriber.new 2).loadState sampleRxConfig.toSubscriberConfig twoSaved).bind
      fun worker => (planResolve sampleRxConfig.toSubscriberConfig sampleAnswers worker.channels
        worker.flows).map fun p => p.updates) = some [⟨[0, 1], ⟨0, 0, 1⟩⟩] := by decide
  rw [hload, Option.bind_some] at hplans
  obtain ⟨p, hp, hupdates⟩ := Option.map_eq_some_iff.mp hplans
  obtain ⟨_, hproper, _⟩ := resolution_proper sampleRxConfig 2 twoSaved worker hload (.start 2 none)
    (start worker (.start 2 none)) .refl sampleAnswers
  exact ⟨worker, p, _, hload, hp, hupdates, rfl, hproper p hp⟩

/-- Two channels subscribed to `a` and `b` at host `h` from the saved state. -/
def twoNamed : List Subscriber.SavedChannelState := [⟨1, "a", "h"⟩, ⟨2, "b", "h"⟩]

/-- One local channel is found, as a transmitter channel at the first place of
bundle 5. -/
def placeAnswers (ch : Nat) (txChannelId : BitVec 16) : ResolveEnv where
  queryChan i :=
    if i = ch then
      some ⟨⟨0x0a000001, 4455⟩, 2, txChannelId, 24, 0, 16, 64, 1000000, some ⟨"h", 5, 0⟩⟩
    else none
  queryBund _ := some ⟨2, 24, 1000000, ⟨0xef000001, 4321⟩⟩
  socketOk _ := true
  elapsed _ := 0

/-- The first channel is connected to the bundle. -/
def connectPlace : List RxEvent :=
  [.resolve (placeAnswers 0 1), .job 0 (.ok [1, 2, 3, 4, 5, 6]), .receive 1 (some 0), .apply,
    .receive 0 (some 0), .finish]

open RxWorld in
/-- An answer that puts another transmitter channel at a place of a bundle that
is in use leads to an update for that slot. -/
theorem bundle_slot_reassigned :
    ¬ ∀ worker, (Subscriber.new 2).loadState sampleRxConfig.toSubscriberConfig twoNamed =
        some worker → ∀ w, Reaches sampleRxConfig (fun _ _ => True)
          (start worker (.start 2 none)) w → ∀ env p,
        planResolve sampleRxConfig.toSubscriberConfig env w.worker.channels w.worker.flows =
          some p → ∀ u ∈ p.updates, ∀ flow, flowAt w.worker.flows u.remote = some flow →
        0 < flow.channelsRefcount.getD u.remote.channelInFlow 0 →
          flow.txChannels[u.remote.channelInFlow]? = some (some u.remote.txChannelId) := by
  intro h
  obtain ⟨worker, hload⟩ := Option.isSome_iff_exists.mp (show ((Subscriber.new 2).loadState
    sampleRxConfig.toSubscriberConfig twoNamed).isSome by decide)
  have hruns : (((Subscriber.new 2).loadState sampleRxConfig.toSubscriberConfig twoNamed).bind
      fun worker => (runWith sampleRxConfig (fun _ _ => True) (start worker (.start 2 none))
        connectPlace).map fun w => ((w.worker.flows[0]?.join).map fun flow =>
          (flow.channelsRefcount, flow.txChannels),
        (planResolve sampleRxConfig.toSubscriberConfig (placeAnswers 1 2) w.worker.channels
          w.worker.flows).map Plan.updates)) =
      some (some ([1, 0], [some 1, none]), some [⟨[1], ⟨0, 0, 2⟩⟩]) := by decide
  rw [hload, Option.bind_some] at hruns
  obtain ⟨w, hw, hend⟩ := Option.map_eq_some_iff.mp hruns
  obtain ⟨hflows, hplans⟩ := Prod.mk.inj hend
  obtain ⟨flow, hflow, hslots⟩ := Option.map_eq_some_iff.mp hflows
  obtain ⟨hcounts, htx⟩ := Prod.mk.inj hslots
  obtain ⟨p, hp, hupdates⟩ := Option.map_eq_some_iff.mp hplans
  have hkept := h worker hload w (reaches_of_runWith hw) (placeAnswers 1 2) p hp
    ⟨[1], ⟨0, 0, 2⟩⟩ (by rw [hupdates]; exact List.mem_cons_self) flow hflow
    (by rw [hcounts]; decide)
  rw [htx] at hkept
  cases hkept

end Inferno
