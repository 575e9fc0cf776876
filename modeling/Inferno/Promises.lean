import Inferno.Refcounts

/-!
# What a resolution has promised

The updates of a resolution that are not applied yet: those sent already, and
those of futures that have still to run. No channel is promised twice, two
promises of one slot do not differ, nor do they from what is connected there,
and nobody has anything to do with a flow that a future has still to make.
-/

namespace Inferno

open Partial

/-- All updates that are not applied. -/
def promised (jobs : List Job) (sent : List ChannelSourceUpdate) : List ChannelSourceUpdate :=
  jobs.flatMap Job.updates ++ sent

/-- What the futures to come and the updates sent have promised. -/
structure Promised (s : Subscriber) (jobs : List Job) (sent : List ChannelSourceUpdate) : Prop where
  nodup : ((promised jobs sent).flatMap ChannelSourceUpdate.localChannelIndices).Nodup
  unserved : ∀ u ∈ promised jobs sent, ∀ chi ∈ u.localChannelIndices, remoteOf s.channels chi = none
  compatible : ∀ u ∈ promised jobs sent, ∀ v ∈ promised jobs sent,
    Compatible s.flows u.remote v.remote
  served : ∀ chi r, remoteOf s.channels chi = some r →
    ∀ u ∈ promised jobs sent, Compatible s.flows r u.remote
  newFlow : ∀ job ∈ jobs, ∀ f ∈ job.newFlow,
    (∀ chi r, remoteOf s.channels chi = some r → r.localFlowIndex ≠ f) ∧
      (∀ u ∈ sent, u.remote.localFlowIndex ≠ f)
  apart : jobs.Pairwise Job.Apart

namespace Promised

variable {cfg : SubscriberConfig} {s s' : Subscriber} {jobs jobs' : List Job}
  {sent sent' : List ChannelSourceUpdate}

theorem nothing (s : Subscriber) : Promised s [] [] where
  nodup := List.nodup_nil
  unserved _ hu := by cases hu
  compatible _ hu := by cases hu
  served _ _ _ _ hu := by cases hu
  newFlow _ hj := by cases hj
  apart := .nil

/-- Fewer promises, in whatever order. -/
theorem subperm (h : Promised s jobs sent) {jobs₀ : List Job} (hjobs : jobs'.Perm jobs₀)
    (hjobs₀ : jobs₀.Sublist jobs) {sent₀ : List ChannelSourceUpdate} (hsent : sent'.Perm sent₀)
    (hsent₀ : sent₀.Sublist sent) : Promised s jobs' sent' := by
  have hperm : (promised jobs' sent').Perm (promised jobs₀ sent₀) :=
    (hjobs.flatMap_right Job.updates).append hsent
  have hsub : (promised jobs₀ sent₀).Sublist (promised jobs sent) :=
    (hjobs₀.flatMap Job.updates).append hsent₀
  have hmem : ∀ u ∈ promised jobs' sent', u ∈ promised jobs sent := fun u hu =>
    hsub.subset (hperm.subset hu)
  refine ⟨?_, fun u hu => h.unserved u (hmem u hu),
    fun u hu v hv => h.compatible u (hmem u hu) v (hmem v hv),
    fun chi r hr u hu => h.served chi r hr u (hmem u hu), fun job hjob f hf => ?_, ?_⟩
  · refine (hperm.flatMap_right _).nodup_iff.mpr (h.nodup.sublist ?_)
    exact hsub.flatMap _
  · obtain ⟨hserved, hother⟩ := h.newFlow job (hjobs₀.subset (hjobs.subset hjob)) f hf
    exact ⟨hserved, fun u hu => hother u (hsent₀.subset (hsent.subset hu))⟩
  · exact (hjobs.pairwise_iff fun ha => ha.symm).mpr (h.apart.sublist hjobs₀)

/-- The flows go, or stay unicast or with their bundle. -/
theorem of_kept (h : Promised s jobs sent) (hkept : Kept s.flows s'.flows)
    (hchannels : s'.channels = s.channels) : Promised s' jobs sent where
  nodup := h.nodup
  unserved := by
    rw [hchannels]
    exact h.unserved
  compatible u hu v hv := hkept.compatible (h.compatible u hu v hv)
  served chi r hr u hu := hkept.compatible (h.served chi r (hchannels ▸ hr) u hu)
  newFlow := by
    rw [hchannels]
    exact h.newFlow
  apart := h.apart

/-- A future has run, and its updates are sent. -/
theorem send {job : Job} (h : Promised s (job :: jobs) sent) :
    Promised s jobs (sent ++ job.updates) := by
  obtain ⟨hapart, hrest⟩ := List.pairwise_cons.mp h.apart
  have hperm : (promised jobs (sent ++ job.updates)).Perm (promised (job :: jobs) sent) := by
    rw [promised, promised, List.flatMap_cons, ← List.append_assoc, List.append_assoc job.updates]
    exact List.perm_append_comm
  have hmem : ∀ u ∈ promised jobs (sent ++ job.updates), u ∈ promised (job :: jobs) sent :=
    fun u hu => hperm.subset hu
  refine ⟨(hperm.flatMap_right _).nodup_iff.mpr h.nodup, fun u hu => h.unserved u (hmem u hu),
    fun u hu v hv => h.compatible u (hmem u hu) v (hmem v hv),
    fun chi r hr u hu => h.served chi r hr u (hmem u hu), fun k hk f hf => ?_, hrest⟩
  obtain ⟨hserved, hother⟩ := h.newFlow k (List.mem_cons_of_mem _ hk) f hf
  refine ⟨hserved, fun u hu => ?_⟩
  rcases List.mem_append.mp hu with hu | hu
  · exact hother u hu
  · exact (hapart k hk).2 f hf u hu

/-! ## Connecting -/

/-- What connecting does to the other slots and to the slots in use. -/
structure Joins (s s' : Subscriber) : Prop where
  kept : Kept s.flows s'.flows
  keeps : KeepsUsed s s'
  users : ∀ f c, slotUsers s.channels f c ≤ slotUsers s'.channels f c

theorem Joins.refl (s : Subscriber) : Joins s s :=
  ⟨(Stays.refl _).kept, (Stays.refl _).keepsUsed, fun _ _ => Nat.le_refl _⟩

theorem Joins.trans {s'' : Subscriber} (h : Joins s s') (h' : Joins s' s'') : Joins s s'' where
  kept := h.kept.trans h'.kept
  users f c := Nat.le_trans (h.users f c) (h'.users f c)
  keeps f flow flow'' hflow hflow'' hbundle c hused := by
    obtain ⟨flow', hflow', hsame'⟩ := h'.kept f flow'' hflow''
    obtain ⟨flow₀, hflow₀, hsame⟩ := h.kept f flow' hflow'
    rw [hflow] at hflow₀
    obtain rfl := Option.some.inj hflow₀
    rw [h'.keeps f flow' flow'' hflow' hflow'' (hsame.trans hbundle) c
      (Nat.lt_of_lt_of_le hused (h.users f c))]
    exact h.keeps f flow flow' hflow hflow' hbundle c hused

/-- A channel takes a slot, which counts one user more; those it had are for
the same transmitter channel. -/
theorem occupy (h : RefcountsExact s) {chi : Nat} {sub : ChannelSubscription} {r : ChannelOtherEnd}
    (hsub : sub.remote = some r)
    (hchi : chi < s.channels.length) (hnone : remoteOf s.channels chi = none)
    (hserved : ∀ chi' r', remoteOf s.channels chi' = some r' → Compatible s.flows r' r)
    {flow flow' : RxFlow} (hflow : s.flows[r.localFlowIndex]?.join = some flow)
    (hlt : r.channelInFlow < flow.txChannels.length) {rc : Int}
    (hrc : flow.channelsRefcount[r.channelInFlow]? = some rc)
    (hflows : s'.flows = s.flows.set r.localFlowIndex (some flow'))
    (hchannels : s'.channels = s.channels.set chi (some sub))
    (hbundle : flow'.bundle = flow.bundle)
    (htx : flow'.txChannels = flow.txChannels.set r.channelInFlow (some r.txChannelId))
    (hcounts : flow'.channelsRefcount = flow.channelsRefcount.set r.channelInFlow (rc + 1)) :
    RefcountsExact s' ∧ Joins s s' := by
  have hf := join_lt hflow
  have hrclt := (List.getElem?_eq_some_iff.mp hrc).1
  have husers : ∀ f c, slotUsers s'.channels f c = slotUsers s.channels f c + (r.isAt f c).toNat := by
    intro f c
    have hset := slotUsers_set hchi (some sub) f c
    rw [hnone, ← hchannels, Option.bind_some, hsub] at hset
    exact hset
  have hremote : ∀ chi' r', remoteOf s'.channels chi' = some r' → r' = r ∨
      remoteOf s.channels chi' = some r' := by
    intro chi' r' hr'
    rw [hchannels, RefcountsExact.remoteOf_set hchi] at hr'
    split at hr'
    · exact .inl (Option.some.inj (hr'.symm.trans hsub))
    · exact .inr hr'
  have hat : ∀ f, s'.flows[f]?.join = if f = r.localFlowIndex then some flow'
      else s.flows[f]?.join := by
    intro f
    rw [hflows, join_set hf]
  -- in use and unicast, the slot has what it is given
  have hsame : ∀ c, 0 < slotUsers s.channels r.localFlowIndex c → flow.bundle = none →
      flow'.txChannels[c]? = flow.txChannels[c]? := by
    intro c hused hunicast
    rw [htx]
    by_cases hc : c = r.channelInFlow
    · obtain ⟨chi', r', hr', hindex, hslot⟩ := exists_of_slotUsers_pos hused
      have hflow' : flowAt s.flows r' = some flow := by rw [flowAt, hindex, hflow]
      have hcarries := h.carries chi' r' hr' flow hflow' hunicast
      rw [hserved chi' r' hr' flow hflow' hunicast hindex (hslot.trans hc), hslot] at hcarries
      rw [hcarries, hc, List.getElem?_set_self hlt]
    · rw [List.getElem?_set_ne (Ne.symm hc)]
  refine ⟨⟨fun f flow₁ hf₁ c rc₁ hrc₁ => ?_, fun chi' r' hr' => ?_, fun chi' r' hr' flow₁ hf₁ hb₁ => ?_⟩,
    hflows ▸ .set hflow hbundle, fun f flow₁ flow₂ hf₁ hf₂ hb₁ c hused => ?_, fun f c => ?_⟩
  · rw [hat] at hf₁
    rw [husers]
    split at hf₁
    · next heq =>
        subst heq
        obtain rfl := Option.some.inj hf₁
        rw [hcounts] at hrc₁
        by_cases hc : c = r.channelInFlow
        · subst hc
          rw [List.getElem?_set_self hrclt] at hrc₁
          obtain rfl := Option.some.inj hrc₁
          rw [r.isAt_self, h.counts _ flow hflow _ rc hrc, Bool.toNat_true]
          omega
        · rw [List.getElem?_set_ne (Ne.symm hc)] at hrc₁
          rw [ChannelOtherEnd.isAt_false fun hat => hc hat.2.symm]
          exact h.counts _ flow hflow c rc₁ hrc₁
    · next hne =>
        rw [ChannelOtherEnd.isAt_false fun hat => hne hat.1.symm]
        exact h.counts f flow₁ hf₁ c rc₁ hrc₁
  · rcases hremote chi' r' hr' with rfl | hr'
    · refine ⟨flow', ?_, ?_, ?_⟩
      · rw [flowAt, hat, if_pos rfl]
      · rw [hcounts, List.length_set]
        exact hrclt
      · rw [htx, List.length_set]
        exact hlt
    · obtain ⟨flow₁, hflow₁, hlt₁, hlt₂⟩ := h.slots chi' r' hr'
      by_cases hindex : r'.localFlowIndex = r.localFlowIndex
      · rw [flowAt, hindex, hflow] at hflow₁
        obtain rfl := Option.some.inj hflow₁
        refine ⟨flow', ?_, ?_, ?_⟩
        · rw [flowAt, hat, if_pos hindex]
        · rw [hcounts, List.length_set]
          exact hlt₁
        · rw [htx, List.length_set]
          exact hlt₂
      · refine ⟨flow₁, ?_, hlt₁, hlt₂⟩
        rw [flowAt, hat, if_neg hindex]
        exact hflow₁
  · rw [flowAt, hat] at hf₁
    rcases hremote chi' r' hr' with rfl | hr'
    · rw [if_pos rfl] at hf₁
      obtain rfl := Option.some.inj hf₁
      rw [htx, List.getElem?_set_self hlt]
    · split at hf₁
      · next hindex =>
          obtain rfl := Option.some.inj hf₁
          have hb : flow.bundle = none := hbundle ▸ hb₁
          rw [hsame r'.channelInFlow (hindex ▸ slotUsers_pos hr') hb]
          exact h.carries chi' r' hr' flow (by rw [flowAt, hindex, hflow]) hb
      · exact h.carries chi' r' hr' flow₁ hf₁ hb₁
  · rw [hat] at hf₂
    split at hf₂
    · next hindex =>
        subst hindex
        rw [hflow] at hf₁
        obtain rfl := Option.some.inj hf₁
        obtain rfl := Option.some.inj hf₂
        exact hsame c hused hb₁
    · rw [hf₁] at hf₂
      obtain rfl := Option.some.inj hf₂
      rfl
  · rw [husers]
    exact Nat.le_add_right _ _

/-- Without the first channel of an update, everything else is promised as before. -/
theorem first_dropped {chi : Nat} {chis : List Nat} {r : ChannelOtherEnd}
    (hp : Promised s jobs (⟨chi :: chis, r⟩ :: sent)) :
    Promised s jobs (⟨chis, r⟩ :: sent) ∧ remoteOf s.channels chi = none ∧
      (∀ chi' r', remoteOf s.channels chi' = some r' → Compatible s.flows r' r) ∧
      ∀ u ∈ promised jobs (⟨chis, r⟩ :: sent),
        (∀ i ∈ u.localChannelIndices, i ≠ chi) ∧ Compatible s.flows r u.remote := by
  have hfirst : (⟨chi :: chis, r⟩ : ChannelSourceUpdate) ∈
      promised jobs (⟨chi :: chis, r⟩ :: sent) := List.mem_append_right _ List.mem_cons_self
  -- the other promises are for other channels
  have hperm : ((promised jobs (⟨chi :: chis, r⟩ :: sent)).flatMap
      ChannelSourceUpdate.localChannelIndices).Perm (chi :: (promised jobs (⟨chis, r⟩ :: sent)).flatMap
        ChannelSourceUpdate.localChannelIndices) := by
    rw [promised, promised, List.flatMap_append, List.flatMap_append, List.flatMap_cons,
      List.flatMap_cons]
    exact List.perm_middle
  obtain ⟨hnot, hnodup⟩ := List.nodup_cons.mp (hperm.nodup_iff.mp hp.nodup)
  have hmem : ∀ u ∈ promised jobs (⟨chis, r⟩ :: sent), ∃ v ∈ promised jobs (⟨chi :: chis, r⟩ :: sent),
      v.remote = u.remote ∧ ∀ i ∈ u.localChannelIndices, i ∈ v.localChannelIndices := by
    intro u hu
    rcases List.mem_append.mp hu with hu | hu
    · exact ⟨u, List.mem_append_left _ hu, rfl, fun _ hi => hi⟩
    rcases List.mem_cons.mp hu with rfl | hu
    · exact ⟨_, hfirst, rfl, fun _ hi => List.mem_cons_of_mem _ hi⟩
    · exact ⟨u, List.mem_append_right _ (List.mem_cons_of_mem _ hu), rfl, fun _ hi => hi⟩
  refine ⟨⟨hnodup, fun u hu i hi => ?_, fun u hu v hv => ?_, fun chi' r' hr' u hu => ?_,
    fun job hjob f hf => ?_, hp.apart⟩, hp.unserved _ hfirst chi List.mem_cons_self,
    fun chi' r' hr' => hp.served chi' r' hr' _ hfirst, fun u hu => ⟨?_, ?_⟩⟩
  · obtain ⟨v, hv, _, hall⟩ := hmem u hu
    exact hp.unserved v hv i (hall i hi)
  · obtain ⟨u', hu', hur, _⟩ := hmem u hu
    obtain ⟨v', hv', hvr, _⟩ := hmem v hv
    rw [← hur, ← hvr]
    exact hp.compatible u' hu' v' hv'
  · obtain ⟨u', hu', hur, _⟩ := hmem u hu
    rw [← hur]
    exact hp.served chi' r' hr' u' hu'
  · obtain ⟨hs, ho⟩ := hp.newFlow job hjob f hf
    obtain ⟨h₀, ho⟩ := List.forall_mem_cons.mp ho
    exact ⟨hs, List.forall_mem_cons.mpr ⟨h₀, ho⟩⟩
  · rintro i hi rfl
    exact hnot (List.mem_flatMap.mpr ⟨u, hu, hi⟩)
  · obtain ⟨v, hv, hvr, _⟩ := hmem u hu
    rw [← hvr]
    exact hp.compatible _ hfirst v hv

/-- The first channel of an update is connected. -/
theorem connect (h : RefcountsExact s) {chi : Nat} {chis : List Nat} {r : ChannelOtherEnd}
    (hp : Promised s jobs (⟨chi :: chis, r⟩ :: sent)) {now : Clock}
    (hrun : s.connect cfg now r chi = some s') :
    RefcountsExact s' ∧ Promised s' jobs (⟨chis, r⟩ :: sent) ∧ Joins s s' := by
  obtain ⟨hp', hnone, hserved, hrest⟩ := hp.first_dropped
  obtain ⟨sub, flow, hsub, hflow, ⟨_, rfl⟩ | ⟨hlt, rc, rbOutput, hrc, _, rfl⟩⟩ :=
    Subscriber.connect_cases hrun
  · exact ⟨h, hp', .refl _⟩
  · have hchi := join_lt hsub
    have hsub' : ({ sub with remote := some r } : ChannelSubscription).remote = some r := rfl
    obtain ⟨hexact, hjoins⟩ : RefcountsExact { s with
        flows := s.flows.set r.localFlowIndex (some (s.occupy cfg now r flow chi rc rbOutput))
        channels := s.channels.set chi (some { sub with remote := some r })
        subscriptionsInfo := s.subscriptionsInfo.set chi
          (some ⟨sub.txChannelName, sub.txHostname, .inProgress⟩)
        nextRing := s.nextRing + 1
        spawned := s.spawned ++ s.connectTasks cfg now r flow chi rbOutput } ∧ Joins s _ :=
      occupy h hsub' hchi hnone hserved hflow hlt hrc rfl rfl rfl rfl rfl
    have hremote : ∀ chi', remoteOf (s.channels.set chi (some { sub with remote := some r })) chi' =
        if chi' = chi then some r else remoteOf s.channels chi' := fun chi' =>
      RefcountsExact.remoteOf_set hchi _ chi'
    refine ⟨hexact, ⟨hp'.nodup, fun u hu i hi => ?_, fun u hu v hv =>
      hjoins.kept.compatible (hp'.compatible u hu v hv), fun chi' r' hr' u hu => ?_,
      fun job hjob f hf => ?_, hp'.apart⟩, hjoins⟩
    · rw [hremote, if_neg ((hrest u hu).1 i hi)]
      exact hp'.unserved u hu i hi
    · refine hjoins.kept.compatible ?_
      rw [hremote] at hr'
      split at hr'
      · obtain rfl := Option.some.inj hr'
        exact (hrest u hu).2
      · exact hp'.served chi' r' hr' u hu
    · obtain ⟨hs, ho⟩ := hp'.newFlow job hjob f hf
      obtain ⟨h₀, _⟩ := List.forall_mem_cons.mp ho
      refine ⟨fun chi' r' hr' => ?_, ho⟩
      rw [hremote] at hr'
      split at hr'
      · obtain rfl := Option.some.inj hr'
        exact h₀
      · exact hs chi' r' hr'

/-- All channels of an update are connected, and it is done with. -/
theorem connect_all {chis : List Nat} {r : ChannelOtherEnd} (h : RefcountsExact s)
    (hp : Promised s jobs (⟨chis, r⟩ :: sent)) {now : Clock}
    (hrun : chis.foldlM (Subscriber.connect cfg now r) s = some s') :
    RefcountsExact s' ∧ Promised s' jobs sent ∧ Joins s s' := by
  induction chis generalizing s with
  | nil =>
      obtain rfl := Option.some.inj hrun
      exact ⟨h, hp.subperm (.refl _) (.refl _) (.refl _) (List.sublist_cons_self _ _), .refl _⟩
  | cons chi chis ih =>
      rw [List.foldlM_cons] at hrun
      obtain ⟨s₁, h₁, hrun⟩ := Option.bind_eq_some_iff.mp hrun
      obtain ⟨hexact, hp₁, hjoins₁⟩ := connect h hp h₁
      obtain ⟨hexact', hp', hjoins⟩ := ih hexact hp₁ hrun
      exact ⟨hexact', hp', hjoins₁.trans hjoins⟩

end Promised

end Inferno
