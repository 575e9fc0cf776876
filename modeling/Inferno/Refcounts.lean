import Inferno.ResolveSlots
import Inferno.SubscriptionsView

/-!
# The reference counts are exact

For every slot of every receive flow the worker counts the local channels that
are connected to it, and a channel is connected to a slot that is there and, in
a unicast flow, carries what the channel is subscribed to. Both hold in every
run (`refcounts_exact`): between planning and applying, no channel is promised
twice and no two promises of one slot differ.
-/

namespace Inferno

open Partial

/-! ## The users of a slot -/

/-- An end at a slot. -/
def ChannelOtherEnd.isAt (f c : Nat) (r : ChannelOtherEnd) : Bool :=
  r.localFlowIndex = f && r.channelInFlow = c

theorem ChannelOtherEnd.isAt_iff {f c : Nat} {r : ChannelOtherEnd} :
    r.isAt f c = true ↔ r.localFlowIndex = f ∧ r.channelInFlow = c := by
  simp [isAt]

theorem ChannelOtherEnd.isAt_false {f c : Nat} {r : ChannelOtherEnd}
    (h : ¬ (r.localFlowIndex = f ∧ r.channelInFlow = c)) : r.isAt f c = false :=
  Bool.eq_false_iff.mpr fun hat => h (isAt_iff.mp hat)

theorem ChannelOtherEnd.isAt_self (r : ChannelOtherEnd) :
    r.isAt r.localFlowIndex r.channelInFlow = true := isAt_iff.mpr ⟨rfl, rfl⟩

/-- How many local channels are connected to a slot. -/
def slotUsers (channels : List (Option ChannelSubscription)) (f c : Nat) : Nat :=
  channels.countP fun o => (o.bind ChannelSubscription.remote).any (·.isAt f c)

theorem slotUsers_congr {channels channels' : List (Option ChannelSubscription)} {f c : Nat}
    (hlen : channels'.length = channels.length)
    (h : ∀ chi, (remoteOf channels' chi).any (·.isAt f c) =
      (remoteOf channels chi).any (·.isAt f c)) :
    slotUsers channels' f c = slotUsers channels f c := by
  have hmap : channels'.map (fun o => (o.bind ChannelSubscription.remote).any (·.isAt f c)) =
      channels.map fun o => (o.bind ChannelSubscription.remote).any (·.isAt f c) := by
    refine List.ext_getElem (by simp [hlen]) fun i h₁ h₂ => ?_
    rw [List.length_map] at h₁ h₂
    have hi := h i
    rw [remoteOf, remoteOf, List.getElem?_eq_getElem h₁, List.getElem?_eq_getElem h₂] at hi
    simpa using hi
  have hcount := congrArg (List.countP (· = true)) hmap
  rw [List.countP_map, List.countP_map] at hcount
  simpa [Function.comp_def, slotUsers] using hcount

/-- One channel is changed. -/
theorem slotUsers_set {channels : List (Option ChannelSubscription)} {chi : Nat}
    (hchi : chi < channels.length) (o : Option ChannelSubscription) (f c : Nat) :
    slotUsers (channels.set chi o) f c +
        ((remoteOf channels chi).any (·.isAt f c)).toNat =
      slotUsers channels f c + ((o.bind ChannelSubscription.remote).any (·.isAt f c)).toNat := by
  have hget : remoteOf channels chi = channels[chi].bind ChannelSubscription.remote := by
    rw [remoteOf, List.getElem?_eq_getElem hchi, Option.join_some]
  rw [slotUsers, slotUsers, List.countP_set hchi, hget]
  have hpos : ((channels[chi].bind ChannelSubscription.remote).any (·.isAt f c)).toNat ≤
      channels.countP fun o => (o.bind ChannelSubscription.remote).any (·.isAt f c) := by
    cases hold : (channels[chi].bind ChannelSubscription.remote).any (·.isAt f c) with
    | false => exact Nat.zero_le _
    | true => exact List.countP_pos_iff.mpr ⟨_, List.getElem_mem hchi, hold⟩
  cases hold : (channels[chi].bind ChannelSubscription.remote).any (·.isAt f c) <;>
    cases hnew : (o.bind ChannelSubscription.remote).any (·.isAt f c) <;>
    rw [hold] at hpos <;> simp only [Bool.toNat_true, Bool.toNat_false, if_true] at hpos ⊢ <;> simp <;> omega

theorem slotUsers_pos {channels : List (Option ChannelSubscription)} {chi : Nat}
    {r : ChannelOtherEnd} (h : remoteOf channels chi = some r) :
    0 < slotUsers channels r.localFlowIndex r.channelInFlow := by
  obtain ⟨sub, hsub, hr⟩ := Option.bind_eq_some_iff.mp h
  refine List.countP_pos_iff.mpr ⟨some sub, ?_, ?_⟩
  · exact List.mem_of_getElem? (Option.join_eq_some_iff.mp hsub)
  · rw [Option.bind_some, hr]
    exact r.isAt_self

theorem exists_of_slotUsers_pos {channels : List (Option ChannelSubscription)} {f c : Nat}
    (h : 0 < slotUsers channels f c) :
    ∃ chi r, remoteOf channels chi = some r ∧ r.localFlowIndex = f ∧ r.channelInFlow = c := by
  obtain ⟨o, ho, hany⟩ := List.countP_pos_iff.mp h
  obtain ⟨chi, hchi⟩ := List.mem_iff_getElem?.mp ho
  cases hr : o.bind ChannelSubscription.remote with
  | none =>
      rw [hr] at hany
      cases hany
  | some r =>
      rw [hr] at hany
      exact ⟨chi, r, by rw [remoteOf, hchi]; exact hr, ChannelOtherEnd.isAt_iff.mp hany⟩

/-! ## The counts -/

/-- The counts are right, and every end is at a slot that is there and carries
what it should. -/
structure RefcountsExact (s : Subscriber) : Prop where
  counts : ∀ (f : Nat) flow, s.flows[f]?.join = some flow →
    ∀ (c : Nat) rc, flow.channelsRefcount[c]? = some rc → rc = slotUsers s.channels f c
  slots : ∀ chi r, remoteOf s.channels chi = some r → ∃ flow, flowAt s.flows r = some flow ∧
    r.channelInFlow < flow.channelsRefcount.length ∧ r.channelInFlow < flow.txChannels.length
  carries : ∀ chi r, remoteOf s.channels chi = some r → Carries s.flows r

/-- A flow that stays keeps the transmitter channels of the slots in use. -/
def KeepsUsed (s s' : Subscriber) : Prop :=
  ∀ (f : Nat) flow flow', s.flows[f]?.join = some flow → s'.flows[f]?.join = some flow' →
    flow.bundle = none → ∀ c, 0 < slotUsers s.channels f c →
      flow'.txChannels[c]? = flow.txChannels[c]?

/-- Flows go, or stay unicast or with their bundle. -/
def Kept (flows flows' : List (Option RxFlow)) : Prop :=
  ∀ (f : Nat) flow', flows'[f]?.join = some flow' →
    ∃ flow, flows[f]?.join = some flow ∧ flow'.bundle = flow.bundle

/-- And they stay with what they carry. -/
def Stays (flows flows' : List (Option RxFlow)) : Prop :=
  ∀ (f : Nat) flow', flows'[f]?.join = some flow' → ∃ flow, flows[f]?.join = some flow ∧
    flow'.bundle = flow.bundle ∧ flow'.txChannels = flow.txChannels

namespace Kept

variable {flows flows' : List (Option RxFlow)}

/-- One flow changes in something else. -/
theorem set {f : Nat} {flow flow' : RxFlow} (hflow : flows[f]?.join = some flow)
    (hbundle : flow'.bundle = flow.bundle) : Kept flows (flows.set f (some flow')) := by
  intro i flow'' hi
  rw [join_set (join_lt hflow)] at hi
  split at hi
  · next heq =>
      obtain rfl := Option.some.inj hi
      exact ⟨flow, heq ▸ hflow, hbundle⟩
  · exact ⟨flow'', hi, rfl⟩

theorem trans {flows'' : List (Option RxFlow)} (h : Kept flows flows') (h' : Kept flows' flows'') :
    Kept flows flows'' := by
  intro f flow'' hf
  obtain ⟨flow', hflow', hsame'⟩ := h' f flow'' hf
  obtain ⟨flow, hflow, hsame⟩ := h f flow' hflow'
  exact ⟨flow, hflow, hsame'.trans hsame⟩

theorem compatible (h : Kept flows flows') {r r' : ChannelOtherEnd} (hc : Compatible flows r r') :
    Compatible flows' r r' := by
  intro flow' hflow' hbundle
  obtain ⟨flow, hflow, hsame⟩ := h _ flow' hflow'
  exact hc flow hflow (hsame ▸ hbundle)

theorem bundleNames (h : Kept flows flows') :
    (Plan.bundleNames flows').Sublist (Plan.bundleNames flows) := by
  induction flows' generalizing flows with
  | nil => exact List.nil_sublist _
  | cons o' flows' ih =>
      cases flows with
      | nil =>
          have hnil : Plan.bundleNames (o' :: flows') = [] := by
            refine List.filterMap_eq_nil_iff.mpr fun o ho => ?_
            obtain ⟨f, hf⟩ := List.mem_iff_getElem?.mp ho
            cases o with
            | none => rfl
            | some flow' =>
                obtain ⟨flow, hflow, _⟩ := h f flow' (by rw [hf, Option.join_some])
                cases hflow
          rw [hnil]
          exact List.nil_sublist _
      | cons o flows =>
          have hkept : Kept flows flows' := fun f flow' hf => h (f + 1) flow' hf
          have hrest := ih hkept
          rw [Plan.bundleNames, Plan.bundleNames, List.filterMap_cons, List.filterMap_cons]
          cases o' with
          | none =>
              show (Plan.bundleNames flows').Sublist _
              cases o.bind RxFlow.bundle with
              | none => exact hrest
              | some name => exact hrest.cons name
          | some flow' =>
              obtain ⟨flow, hflow, hbundle⟩ := h 0 flow' rfl
              obtain rfl : o = some flow := hflow
              rw [Option.bind_some, Option.bind_some, hbundle]
              cases flow.bundle with
              | none => exact hrest
              | some name => exact hrest.cons_cons name

end Kept

namespace Stays

variable {flows flows' : List (Option RxFlow)}

theorem refl (flows : List (Option RxFlow)) : Stays flows flows :=
  fun _ flow hflow => ⟨flow, hflow, rfl, rfl⟩

theorem trans {flows'' : List (Option RxFlow)} (h : Stays flows flows')
    (h' : Stays flows' flows'') : Stays flows flows'' := by
  intro f flow'' hf
  obtain ⟨flow', hflow', hbundle', htx'⟩ := h' f flow'' hf
  obtain ⟨flow, hflow, hbundle, htx⟩ := h f flow' hflow'
  exact ⟨flow, hflow, hbundle'.trans hbundle, htx'.trans htx⟩

theorem kept (h : Stays flows flows') : Kept flows flows' :=
  fun f flow' hf => (h f flow' hf).imp fun _ hflow => ⟨hflow.1, hflow.2.1⟩

theorem set {f : Nat} {flow flow' : RxFlow} (hflow : flows[f]?.join = some flow)
    (hbundle : flow'.bundle = flow.bundle) (htx : flow'.txChannels = flow.txChannels) :
    Stays flows (flows.set f (some flow')) := by
  intro i flow'' hi
  rw [join_set (join_lt hflow)] at hi
  split at hi
  · next heq =>
      obtain rfl := Option.some.inj hi
      exact ⟨flow, heq ▸ hflow, hbundle, htx⟩
  · exact ⟨flow'', hi, rfl, rfl⟩

theorem keepsUsed {s s' : Subscriber} (h : Stays s.flows s'.flows) : KeepsUsed s s' := by
  intro f flow flow' hflow hflow' _ c _
  obtain ⟨flow'', hflow'', _, htx⟩ := h f flow' hflow'
  rw [hflow] at hflow''
  obtain rfl := Option.some.inj hflow''
  rw [htx]

end Stays

namespace RefcountsExact

variable {cfg : SubscriberConfig} {s s' : Subscriber}

theorem inUse (h : RefcountsExact s) {chi : Nat} {r : ChannelOtherEnd}
    (hr : remoteOf s.channels chi = some r) : InUse s.flows r := by
  obtain ⟨flow, hflow, hlt, _⟩ := h.slots chi r hr
  refine ⟨⟨flow, hflow, ?_⟩, h.carries chi r hr⟩
  have hget := List.getElem?_eq_getElem hlt
  rw [List.getD_eq_getElem?_getD, hget, Option.getD_some, h.counts _ flow hflow _ _ hget]
  exact Int.natCast_pos.mpr (slotUsers_pos hr)

theorem of_eq (h : RefcountsExact s) (hchannels : s'.channels = s.channels)
    (hflows : s'.flows = s.flows) : RefcountsExact s' where
  counts := by
    rw [hchannels, hflows]
    exact h.counts
  slots := by
    rw [hchannels, hflows]
    exact h.slots
  carries := by
    rw [hchannels, hflows]
    exact h.carries

/-- Nobody is connected anew: flows go, or count as many users less as there
are. -/
theorem of_less (h : RefcountsExact s) (hstays : Stays s.flows s'.flows)
    (hcounts : ∀ (f : Nat) flow flow', s.flows[f]?.join = some flow →
      s'.flows[f]?.join = some flow' →
        flow'.channelsRefcount.length = flow.channelsRefcount.length ∧
        ∀ (c : Nat) (rc' : Int), flow'.channelsRefcount[c]? = some rc' → ∃ rc : Int,
          flow.channelsRefcount[c]? = some rc ∧
            rc' - slotUsers s'.channels f c = rc - slotUsers s.channels f c)
    (hremote : ∀ chi r, remoteOf s'.channels chi = some r →
      remoteOf s.channels chi = some r ∧ (flowAt s'.flows r).isSome) : RefcountsExact s' where
  counts f flow' hf c rc' hrc' := by
    obtain ⟨flow, hflow, _, _⟩ := hstays f flow' hf
    obtain ⟨rc, hrc, hsame⟩ := (hcounts f flow flow' hflow hf).2 c rc' hrc'
    have hexact := h.counts f flow hflow c rc hrc
    omega
  slots chi r hr := by
    obtain ⟨hr, hsome⟩ := hremote chi r hr
    obtain ⟨flow', hflow'⟩ := Option.isSome_iff_exists.mp hsome
    obtain ⟨flow, hflow, _, htx⟩ := hstays _ flow' hflow'
    have hlen := (hcounts _ flow flow' hflow hflow').1
    obtain ⟨flow'', hflow'', hlt, hlt'⟩ := h.slots chi r hr
    rw [flowAt, hflow] at hflow''
    obtain rfl := Option.some.inj hflow''
    exact ⟨flow', hflow', hlen ▸ hlt, htx ▸ hlt'⟩
  carries chi r hr flow' hflow' hbundle := by
    obtain ⟨hr, _⟩ := hremote chi r hr
    obtain ⟨flow, hflow, hsame, htx⟩ := hstays _ flow' hflow'
    rw [htx]
    exact h.carries chi r hr flow hflow (hsame ▸ hbundle)

/-! ## Commands -/

theorem remoteOf_set {channels : List (Option ChannelSubscription)} {ch : Nat}
    (hch : ch < channels.length) (o : Option ChannelSubscription) (chi : Nat) :
    remoteOf (channels.set ch o) chi =
      if chi = ch then o.bind ChannelSubscription.remote else remoteOf channels chi := by
  rw [remoteOf, join_set hch, apply_ite (Option.bind · _)]
  rfl

theorem remoteOf_set_free {channels : List (Option ChannelSubscription)} {ch : Nat}
    (hch : ch < channels.length) (hnone : remoteOf channels ch = none)
    {o : Option ChannelSubscription} (ho : o.bind ChannelSubscription.remote = none) (chi : Nat) :
    remoteOf (channels.set ch o) chi = remoteOf channels chi := by
  rw [remoteOf_set hch]
  split
  · next heq => rw [heq, hnone, ho]
  · rfl

/-- A channel without a connection is forgotten, or gets another subscription. -/
theorem set_unserved (h : RefcountsExact s) {ch : Nat} (hch : ch < s.channels.length)
    (hnone : remoteOf s.channels ch = none) {o : Option ChannelSubscription}
    (ho : o.bind ChannelSubscription.remote = none) (hflows : s'.flows = s.flows)
    (hchannels : s'.channels = s.channels.set ch o) : RefcountsExact s' := by
  have hremote : ∀ chi, remoteOf s'.channels chi = remoteOf s.channels chi := by
    intro chi
    rw [hchannels]
    exact remoteOf_set_free hch hnone ho chi
  have husers : ∀ f c, slotUsers s'.channels f c = slotUsers s.channels f c := fun f c =>
    slotUsers_congr (by rw [hchannels, List.length_set]) fun chi => by rw [hremote]
  refine ⟨fun f flow hf c rc hrc => ?_, fun chi r hr => ?_, fun chi r hr => ?_⟩
  · rw [husers]
    exact h.counts f flow (hflows ▸ hf) c rc hrc
  · rw [hflows]
    exact h.slots chi r (hremote chi ▸ hr)
  · rw [hflows]
    exact h.carries chi r (hremote chi ▸ hr)

/-- A channel leaves its slot, which counts one user less. -/
theorem of_release (h : RefcountsExact s) {ch : Nat} (hch : ch < s.channels.length)
    {r : ChannelOtherEnd} (hr : remoteOf s.channels ch = some r) {flow : RxFlow} {rc : Int}
    (hflow : s.flows[r.localFlowIndex]?.join = some flow)
    (hrc : flow.channelsRefcount[r.channelInFlow]? = some rc)
    (hflows : s'.flows = s.flows.set r.localFlowIndex (some { flow with
      channelsRefcount := flow.channelsRefcount.set r.channelInFlow (rc - 1) }))
    (hchannels : s'.channels = s.channels.set ch none) : RefcountsExact s' := by
  have hlt := join_lt hflow
  have husers : ∀ f c, slotUsers s'.channels f c + (r.isAt f c).toNat = slotUsers s.channels f c := by
    intro f c
    have hset := slotUsers_set hch none f c
    rw [hr, ← hchannels] at hset
    exact hset
  refine h.of_less ?_ (fun f flow₀ flow' hf hf' => ?_) fun chi r' hr' => ?_
  · rw [hflows]
    exact Stays.set hflow rfl rfl
  · rw [hflows, join_set hlt] at hf'
    split at hf'
    · next heq =>
        subst heq
        rw [hflow] at hf
        obtain rfl := Option.some.inj hf
        obtain rfl := Option.some.inj hf'
        refine ⟨List.length_set, fun c rc' hrc' => ?_⟩
        have hu := husers r.localFlowIndex c
        by_cases hc : c = r.channelInFlow
        · subst hc
          rw [List.getElem?_set_self (List.getElem?_eq_some_iff.mp hrc).1] at hrc'
          obtain rfl := Option.some.inj hrc'
          rw [r.isAt_self, Bool.toNat_true] at hu
          exact ⟨rc, hrc, by omega⟩
        · rw [List.getElem?_set_ne (Ne.symm hc)] at hrc'
          rw [ChannelOtherEnd.isAt_false fun hat => hc hat.2.symm, Bool.toNat_false] at hu
          exact ⟨rc', hrc', by omega⟩
    · next hne =>
        rw [hf] at hf'
        obtain rfl := Option.some.inj hf'
        refine ⟨rfl, fun c rc' hrc' => ⟨rc', hrc', ?_⟩⟩
        have hu := husers f c
        rw [ChannelOtherEnd.isAt_false fun hat => hne hat.1.symm, Bool.toNat_false] at hu
        omega
  · rw [hchannels, remoteOf_set hch] at hr'
    split at hr'
    · cases hr'
    · obtain ⟨flow', hflow', _⟩ := h.slots chi r' hr'
      refine ⟨hr', ?_⟩
      rw [flowAt, hflows, join_set hlt]
      split
      · rfl
      · rw [← flowAt, hflow']
        rfl

theorem unsubscribe (h : RefcountsExact s) {ch : Nat} {removeFromInfo : Bool}
    (hrun : s.unsubscribe cfg ch removeFromInfo = some s') :
    RefcountsExact s' ∧ Stays s.flows s'.flows ∧ s'.channels = s.channels.set ch none := by
  obtain ⟨hch, ⟨hnone, rfl⟩ | ⟨sub, s₁, hsub, hleave, rfl⟩⟩ := Subscriber.unsubscribe_cases hrun
  · refine ⟨h, .refl _, ?_⟩
    rw [List.getElem?_eq_getElem hch, Option.join_some] at hnone
    rw [← hnone, List.set_getElem_self]
  have hold : remoteOf s.channels ch = sub.remote := by rw [remoteOf, hsub, Option.bind_some]
  unfold Subscriber.leave at hleave
  split at hleave
  · next hnone =>
      obtain rfl := Option.some.inj hleave
      exact ⟨h.set_unserved hch (hold.trans hnone) rfl rfl rfl, .refl _, rfl⟩
  · next r hr =>
      obtain ⟨flow₀, hflow₀, _, _⟩ := h.slots ch r (hold.trans hr)
      rcases Subscriber.release_cases hleave with ⟨hnone, _⟩ | ⟨flow, rc, hflow, hrc, rfl⟩
      · exact absurd (hflow₀.symm.trans hnone) (Option.some_ne_none _)
      · exact ⟨h.of_release hch (hold.trans hr) hflow hrc rfl rfl, .set hflow rfl rfl, rfl⟩

theorem subscribe (h : RefcountsExact s) {ch : Nat} {txChannelName txHostname : String}
    (hrun : s.subscribe cfg ch txChannelName txHostname = some s') :
    RefcountsExact s' ∧ Stays s.flows s'.flows := by
  obtain ⟨hch, s₁, hfirst, rfl⟩ := Subscriber.subscribe_cases hrun
  obtain ⟨h₁, hstays, hlen, hnone⟩ : RefcountsExact s₁ ∧ Stays s.flows s₁.flows ∧
      s₁.channels.length = s.channels.length ∧ remoteOf s₁.channels ch = none := by
    rcases hfirst with ⟨hnone, rfl⟩ | hun
    · exact ⟨h, .refl _, rfl, by rw [remoteOf, hnone, Option.bind_none]⟩
    · obtain ⟨h₁, hstays, hchannels⟩ := h.unsubscribe hun
      refine ⟨h₁, hstays, by rw [hchannels, List.length_set], ?_⟩
      rw [hchannels, remoteOf_set hch, if_pos rfl, Option.bind_none]
  exact ⟨h₁.set_unserved (hlen ▸ hch) hnone rfl rfl rfl, hstays⟩

/-! ## The scan -/

theorem orphan_remote (cfg : SubscriberConfig) (f : Nat) (s : Subscriber) (ch : Nat) :
    (s.orphan cfg f ch).channels.length = s.channels.length ∧
      (s.orphan cfg f ch).flows = s.flows ∧
      ∀ chi, remoteOf (s.orphan cfg f ch).channels chi =
        (remoteOf s.channels chi).filter fun r => !(chi = ch && r.localFlowIndex = f) := by
  unfold Subscriber.orphan
  split
  · next hnone =>
      refine ⟨rfl, rfl, fun chi => ?_⟩
      cases hr : remoteOf s.channels chi with
      | none => rfl
      | some r =>
          rw [Option.filter_some, if_pos]
          by_cases hch : chi = ch
          · subst hch
            have hslot : ((remoteOf s.channels chi).filter (·.localFlowIndex = f)).map
              ChannelOtherEnd.channelInFlow = none := hnone
            rw [hr, Option.filter_some] at hslot
            by_cases hf : r.localFlowIndex = f
            · rw [if_pos (by simpa using hf)] at hslot
              cases hslot
            · simp [hf]
          · simp [hch]
  · next c hsome =>
      refine ⟨List.length_modify .., rfl, fun chi => ?_⟩
      show ((s.channels.modify ch _)[chi]?.join).bind _ = _
      rw [join_modify]
      split
      · next hch =>
          subst hch
          have hslot : ((remoteOf s.channels chi).filter (·.localFlowIndex = f)).map
            ChannelOtherEnd.channelInFlow = some c := hsome
          obtain ⟨r, hr, _⟩ := Option.map_eq_some_iff.mp hslot
          obtain ⟨hr, hf⟩ := Option.filter_eq_some_iff.mp hr
          rw [hr, Option.filter_some, if_neg (by simpa using hf)]
          cases s.channels[chi]?.join <;> rfl
      · next hch =>
          show remoteOf s.channels chi = _
          cases remoteOf s.channels chi <;> simp [hch, Option.filter]

theorem orphan_all (cfg : SubscriberConfig) (f : Nat) (s : Subscriber) (chs : List Nat) :
    (chs.foldl (Subscriber.orphan cfg f) s).channels.length = s.channels.length ∧
      (chs.foldl (Subscriber.orphan cfg f) s).flows = s.flows ∧
      ∀ chi, remoteOf (chs.foldl (Subscriber.orphan cfg f) s).channels chi =
        (remoteOf s.channels chi).filter fun r => !(chi ∈ chs && r.localFlowIndex = f) := by
  induction chs generalizing s with
  | nil =>
      refine ⟨rfl, rfl, fun chi => ?_⟩
      show remoteOf s.channels chi = _
      cases remoteOf s.channels chi <;> simp [Option.filter]
  | cons ch chs ih =>
      obtain ⟨hlen, hflows, hremote⟩ := orphan_remote cfg f s ch
      obtain ⟨hlen', hflows', hremote'⟩ := ih (s.orphan cfg f ch)
      refine ⟨hlen'.trans hlen, hflows'.trans hflows, fun chi => ?_⟩
      rw [List.foldl_cons, hremote', hremote, Option.filter_filter]
      congr 1
      funext r
      by_cases hch : chi = ch <;> by_cases hmem : chi ∈ chs <;> by_cases hf : r.localFlowIndex = f <;>
        simp [hch, hmem, hf]

theorem remoteOf_lt {channels : List (Option ChannelSubscription)} {chi : Nat} {r : ChannelOtherEnd}
    (h : remoteOf channels chi = some r) : chi < channels.length := by
  obtain ⟨_, hsub, _⟩ := Option.bind_eq_some_iff.mp h
  exact join_lt hsub

/-- The flow of an end is given up. -/
def lost (env : Subscriber.ScanEnv) (flows : List (Option RxFlow)) (r : ChannelOtherEnd) : Bool :=
  (flowAt flows r).any (Subscriber.timedOut env r.localFlowIndex ·)

theorem scanChannels_remote (cfg : SubscriberConfig) (env : Subscriber.ScanEnv) (s : Subscriber)
    {f : Nat} {flow : RxFlow} {flows : List (Option RxFlow)} (hflow : flows[f]?.join = some flow) :
    (s.scanChannels cfg env f flow).channels.length = s.channels.length ∧
      (s.scanChannels cfg env f flow).flows = s.flows ∧
      ∀ chi, remoteOf (s.scanChannels cfg env f flow).channels chi =
        (remoteOf s.channels chi).filter fun r => !(r.localFlowIndex = f && lost env flows r) := by
  have hlost : ∀ r : ChannelOtherEnd, r.localFlowIndex = f →
      lost env flows r = Subscriber.timedOut env f flow := by
    rintro r rfl
    rw [lost, flowAt, hflow, Option.any_some]
  have hkeep : Subscriber.timedOut env f flow = false → ∀ chi, remoteOf s.channels chi =
      (remoteOf s.channels chi).filter fun r => !(r.localFlowIndex = f && lost env flows r) := by
    intro hout chi
    cases hr : remoteOf s.channels chi with
    | none => rfl
    | some r =>
        by_cases hf : r.localFlowIndex = f
        · simp [Option.filter, hlost r hf, hout]
        · simp [Option.filter, hf]
  unfold Subscriber.scanChannels
  split
  · next hout =>
      obtain ⟨hlen, hflows, hremote⟩ :=
        orphan_all cfg f s (List.range s.channels.length)
      refine ⟨hlen, hflows, fun chi => ?_⟩
      rw [hremote]
      cases hr : remoteOf s.channels chi with
      | none => rfl
      | some r =>
          have hlt := remoteOf_lt hr
          by_cases hf : r.localFlowIndex = f
          · simp [Option.filter, hlost r hf, hout, hf, hlt]
          · simp [Option.filter, hf]
  split
  · next hout _ =>
      have hsame := foldl_inv (g := Subscriber.markReceiving f flow.source)
        (I := fun v : Subscriber => v.channels = s.channels ∧ v.flows = s.flows)
        (l := List.range s.channels.length) (s := s) (fun v chi _ hv => ?_) ⟨rfl, rfl⟩
      · rw [hsame.1, hsame.2]
        exact ⟨rfl, rfl, hkeep (by simpa using hout)⟩
      · unfold Subscriber.markReceiving
        split <;> exact hv
  · next hout _ => exact ⟨rfl, rfl, hkeep (by simpa using hout)⟩

theorem scanFlow_remote {env : Subscriber.ScanEnv} {f : Nat} {flow : RxFlow}
    {flows : List (Option RxFlow)} (hflow : flows[f]?.join = some flow)
    {destroy : List Subscriber.DestroyFlow}
    (hrun : s.scanFlow cfg env f flow = some (s', destroy)) :
    s'.channels.length = s.channels.length ∧ s'.flows = s.flows ∧
      ∀ chi, remoteOf s'.channels chi =
        (remoteOf s.channels chi).filter fun r => !(r.localFlowIndex = f && lost env flows r) := by
  have hscan := scanChannels_remote cfg env s hflow
  unfold Subscriber.scanFlow at hrun
  dsimp only at hrun
  split at hrun
  · split at hrun
    · cases hrun
    · cases hrun
      exact hscan
    · cases hrun
      exact hscan
  · cases hrun
    exact hscan

theorem scanLoop_remote {env : Subscriber.ScanEnv} {flows rest : List (Option RxFlow)} {n : Nat}
    {destroy : List Subscriber.DestroyFlow} (hdrop : flows.drop n = rest)
    (hrun : s.scanLoop cfg env n rest = some (s', destroy)) :
    s'.channels.length = s.channels.length ∧ s'.flows = s.flows ∧
      ∀ chi, remoteOf s'.channels chi =
        (remoteOf s.channels chi).filter fun r => !(n ≤ r.localFlowIndex && lost env flows r) := by
  induction rest generalizing s n destroy with
  | nil =>
      cases hrun
      refine ⟨rfl, rfl, fun chi => ?_⟩
      have hle := List.drop_eq_nil_iff.mp hdrop
      cases hr : remoteOf s'.channels chi with
      | none => rfl
      | some r =>
          by_cases hn : n ≤ r.localFlowIndex
          · have hnone : flowAt flows r = none := by
              rw [flowAt, List.getElem?_eq_none (Nat.le_trans hle hn), Option.join_none]
            simp [Option.filter, lost, hnone]
          · simp [Option.filter, hn]
  | cons o rest ih =>
      obtain ⟨hget, hdrop'⟩ := drop_cons hdrop
      cases o with
      | none =>
          obtain ⟨hlen, hflows, hremote⟩ := ih hdrop' hrun
          refine ⟨hlen, hflows, fun chi => ?_⟩
          rw [hremote]
          congr 1
          funext r
          by_cases hn : r.localFlowIndex = n
          · have hnone : flowAt flows r = none := by rw [flowAt, hn, hget, Option.join_some]
            simp [lost, hnone]
          · have hiff : n + 1 ≤ r.localFlowIndex ↔ n ≤ r.localFlowIndex := by omega
            simp [hiff]
      | some flow =>
          rw [Subscriber.scanLoop] at hrun
          obtain ⟨⟨s₁, d₁⟩, h₁, hrun⟩ := Option.bind_eq_some_iff.mp hrun
          obtain ⟨⟨s₂, d₂⟩, h₂, hrun⟩ := Option.bind_eq_some_iff.mp hrun
          cases hrun
          have hflow : flows[n]?.join = some flow := by rw [hget, Option.join_some]
          obtain ⟨hlen₁, hflows₁, hremote₁⟩ := scanFlow_remote hflow h₁
          obtain ⟨hlen, hflows, hremote⟩ := ih hdrop' h₂
          refine ⟨hlen.trans hlen₁, hflows.trans hflows₁, fun chi => ?_⟩
          rw [hremote, hremote₁, Option.filter_filter]
          congr 1
          funext r
          by_cases hn : r.localFlowIndex = n
          · have hnot : ¬ n + 1 ≤ n := by omega
            simp [hn, hnot]
          · have hiff : n + 1 ≤ r.localFlowIndex ↔ n ≤ r.localFlowIndex := by omega
            simp [hn, hiff]

/-- The flows that the scan leaves. -/
theorem scan_flows (env : Subscriber.ScanEnv) (flows : List (Option RxFlow)) (f : Nat) :
    (flows.mapIdx fun flowIndex flow =>
      flow.filter (!Subscriber.isRemoved env flowIndex ·))[f]?.join =
        (flows[f]?.join).filter (!Subscriber.isRemoved env f ·) := by
  rw [List.getElem?_mapIdx]
  rcases flows[f]? with _ | _ | flow <;> rfl

/-- The channels of flows that have timed out are not connected any more. -/
theorem scanFlows_remote {env : Subscriber.ScanEnv} {destroy : List Subscriber.DestroyFlow}
    (hrun : s.scanFlows cfg env = some (s', destroy)) :
    s'.channels.length = s.channels.length ∧ ∀ chi, remoteOf s'.channels chi =
      (remoteOf s.channels chi).filter fun r => !lost env s.flows r := by
  unfold Subscriber.scanFlows at hrun
  obtain ⟨⟨s₁, d₁⟩, h₁, hrun⟩ := Option.bind_eq_some_iff.mp hrun
  cases hrun
  obtain ⟨hlen, _, hremote⟩ := scanLoop_remote (List.drop_zero (l := s.flows)) h₁
  refine ⟨hlen, fun chi => ?_⟩
  dsimp only
  rw [hremote]
  congr 1

/-- The flows that are given up are gone. -/
theorem scanFlows_flows {env : Subscriber.ScanEnv} {destroy : List Subscriber.DestroyFlow}
    (hrun : s.scanFlows cfg env = some (s', destroy)) (f : Nat) :
    s'.flows[f]?.join = (s.flows[f]?.join).filter (!Subscriber.isRemoved env f ·) := by
  unfold Subscriber.scanFlows at hrun
  obtain ⟨⟨s₁, d₁⟩, h₁, hrun⟩ := Option.bind_eq_some_iff.mp hrun
  cases hrun
  obtain ⟨_, hflows, _⟩ := scanLoop_remote (List.drop_zero (l := s.flows)) h₁
  dsimp only
  rw [hflows, scan_flows]

theorem scanFlows (h : RefcountsExact s) {env : Subscriber.ScanEnv}
    {destroy : List Subscriber.DestroyFlow} (hrun : s.scanFlows cfg env = some (s', destroy)) :
    RefcountsExact s' ∧ Stays s.flows s'.flows := by
  obtain ⟨hlen, hpart⟩ := scanFlows_remote hrun
  have hleft := scanFlows_flows hrun
  have hstays : Stays s.flows s'.flows := by
    intro f flow' hf
    rw [hleft] at hf
    exact ⟨flow', (Option.filter_eq_some_iff.mp hf).1, rfl, rfl⟩
  refine ⟨h.of_less hstays (fun f flow flow' hf hf' => ?_) fun chi r hr => ?_, hstays⟩
  · rw [hleft, hf] at hf'
    obtain ⟨hsame, hstay⟩ := Option.filter_eq_some_iff.mp hf'
    obtain rfl := Option.some.inj hsame
    refine ⟨rfl, fun c rc hrc => ⟨rc, hrc, ?_⟩⟩
    have husers : slotUsers s'.channels f c = slotUsers s.channels f c := by
      refine slotUsers_congr hlen fun chi => ?_
      rw [hpart]
      cases hr : remoteOf s.channels chi with
      | none => rfl
      | some r =>
          by_cases hat : r.localFlowIndex = f
          · have hnot : lost env s.flows r = false := by
              simp only [Subscriber.isRemoved, Bool.not_eq_true', Bool.or_eq_false_iff] at hstay
              rw [lost, flowAt, hat, hf, Option.any_some, hstay.1]
            simp [Option.filter, hnot]
          · have hfalse : r.isAt f c = false := ChannelOtherEnd.isAt_false fun h => hat h.1
            cases hl : lost env s.flows r <;> simp [Option.filter, hl, hfalse]
    rw [husers]
  · rw [hpart] at hr
    obtain ⟨hr, hnot⟩ := Option.filter_eq_some_iff.mp hr
    refine ⟨hr, ?_⟩
    obtain ⟨flow, hflow, hused⟩ := (h.inUse hr).there
    rw [flowAt, hleft, ← flowAt, hflow, Option.filter_some, if_pos]
    · rfl
    · have hout : Subscriber.timedOut env r.localFlowIndex flow = false := by
        simpa [lost, hflow] using hnot
      have hisUsed : flow.isUsed = true := by
        refine List.any_eq_true.mpr ?_
        rw [List.getD_eq_getElem?_getD] at hused
        cases hget : flow.channelsRefcount[r.channelInFlow]? with
        | none =>
            rw [hget] at hused
            exact absurd hused (Int.lt_irrefl 0)
        | some rc =>
            rw [hget] at hused
            exact ⟨rc, List.mem_of_getElem? hget, decide_eq_true hused⟩
      simp [Subscriber.isRemoved, hout, hisUsed]

end RefcountsExact

end Inferno
