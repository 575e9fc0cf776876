import Inferno.AudioEnd
import Inferno.ChannelMaps

/-!
# What the worker tells the audio end

Each operation of the worker connects channels, disconnects them or leaves
them alone, and the tasks it spawns say so (`Turn`): in the order they are
spawned they lead the collector's slot, or the ring among the sinks, from where
the channel was connected to where it is now.
-/

namespace Inferno

open Detached Partial

/-- The tasks `new` say what has become of a channel. -/
def Told (b : Buffering) (s s' : Subscriber) (new : List Task) (chi : Nat) : Prop :=
  match b with
  | .owned => lastValue (Task.slotEffect chi) ((s.source chi).map RingId.number) new =
      (s'.source chi).map RingId.number
  | .external => Leads (s.place chi) (effects (Task.move chi) new) (s'.place chi)

/-- Every channel that is connected has a ring. -/
def HasRings (s : Subscriber) : Prop :=
  ∀ chi, (remoteOf s.channels chi).isSome → (s.source chi).isSome

structure Turn (b : Buffering) (s s' : Subscriber) : Prop where
  tasks : ∃ new, s'.spawned = s.spawned ++ new ∧ ∀ chi, Told b s s' new chi
  rings : b = .owned → HasRings s'

theorem Told.append {b : Buffering} {s s' s'' : Subscriber} {new new' : List Task} {chi : Nat}
    (h : Told b s s' new chi) (h' : Told b s' s'' new' chi) : Told b s s'' (new ++ new') chi := by
  cases b with
  | owned =>
      unfold Told at h h' ⊢
      dsimp only at h h' ⊢
      rw [lastValue_append, h, h']
  | external =>
      unfold Told at h h' ⊢
      dsimp only at h h' ⊢
      rw [effects_append]
      exact h.append h'

namespace Turn

variable {b : Buffering} {cfg : SubscriberConfig} {s s' : Subscriber}

theorem trans {s'' : Subscriber} (h : Turn b s s') (h' : Turn b s' s'') : Turn b s s'' := by
  obtain ⟨⟨new, hnew, htold⟩, _⟩ := h
  obtain ⟨⟨new', hnew', htold'⟩, hrings'⟩ := h'
  refine ⟨⟨new ++ new', by rw [hnew', hnew, List.append_assoc], fun chi => ?_⟩, hrings'⟩
  exact (htold chi).append (htold' chi)

/-- Tasks that are about no channel's audio, and channels that stay. -/
theorem of_same (hrings : b = .owned → HasRings s) {new : List Task}
    (hspawned : s'.spawned = s.spawned ++ new) (hnew : ∀ t ∈ new, t.removal?.isSome)
    (hremote : ∀ chi, remoteOf s'.channels chi = remoteOf s.channels chi)
    (hsource : ∀ chi, s'.source chi = s.source chi) : Turn b s s' := by
  refine ⟨⟨new, hspawned, fun chi => ?_⟩, fun hb chi => ?_⟩
  · have hplace : s'.place chi = s.place chi := by rw [Subscriber.place, hremote]; rfl
    have hother : ∀ t ∈ new, t.slotEffect chi = none ∧ t.move chi = none := by
      intro t ht
      have hremoval := hnew t ht
      cases t with
      | removeSocket f => exact ⟨rfl, rfl⟩
      | collectorConnect => cases hremoval
      | collectorDisconnect => cases hremoval
      | receiverConnect => cases hremoval
      | receiverDisconnect => cases hremoval
    unfold Told
    cases b with
    | owned =>
        dsimp only
        rw [lastValue_skip (effects_eq_nil fun t ht => (hother t ht).1), hsource]
    | external =>
        dsimp only
        rw [effects_eq_nil fun t ht => (hother t ht).2, hplace]
        rfl
  · rw [hremote, hsource]
    exact hrings hb chi

theorem refl (hrings : b = .owned → HasRings s) : Turn b s s :=
  of_same hrings (List.append_nil _).symm (List.forall_mem_nil _) (fun _ => rfl) fun _ => rfl

/-! ## Flows that stay -/

/-- The rings of the slots in use. -/
theorem source_congr (hremote : ∀ chi, remoteOf s'.channels chi = remoteOf s.channels chi)
    (hring : ∀ chi r, remoteOf s.channels chi = some r →
      slotRing s'.flows r = slotRing s.flows r) (chi : Nat) : s'.source chi = s.source chi := by
  rw [Subscriber.source, Subscriber.source, hremote]
  cases hr : remoteOf s.channels chi with
  | none => rfl
  | some r => exact hring chi r hr

theorem slotRing_set {flows : List (Option RxFlow)} {f : Nat} {flow flow' : RxFlow}
    (hflow : flows[f]?.join = some flow) (hrb : flow'.channelsRbOutputs = flow.channelsRbOutputs)
    (r : ChannelOtherEnd) : slotRing (flows.set f (some flow')) r = slotRing flows r := by
  rw [slotRing, slotRing, flowAt, flowAt, join_set (join_lt hflow)]
  by_cases hr : r.localFlowIndex = f
  · rw [if_pos hr, hr, hflow, Option.bind_some, Option.bind_some, hrb]
  · rw [if_neg hr]

theorem slotRing_release {r : ChannelOtherEnd} (h : s.release r = some s') :
    s'.channels = s.channels ∧ s'.spawned = s.spawned ∧
      ∀ r', slotRing s'.flows r' = slotRing s.flows r' := by
  rcases Subscriber.release_cases h with ⟨_, rfl⟩ | ⟨flow, rc, hflow, _, rfl⟩
  · exact ⟨rfl, rfl, fun _ => rfl⟩
  · exact ⟨rfl, rfl, slotRing_set hflow rfl⟩

/-! ## Disconnecting -/

/-- What `disconnect_channel` says. -/
theorem told_disconnect {ch : Nat} {r : ChannelOtherEnd} (hr : remoteOf s.channels ch = some r)
    (hnone : remoteOf s'.channels ch = none)
    (hremote : ∀ chi, chi ≠ ch → remoteOf s'.channels chi = remoteOf s.channels chi)
    (hring : ∀ r', slotRing s'.flows r' = slotRing s.flows r') (chi : Nat) :
    Told b s s' (b.disconnectChannel ch r.localFlowIndex r.channelInFlow) chi := by
  by_cases hchi : chi = ch
  · subst hchi
    unfold Told
    cases b with
    | owned =>
        have hsource : s'.source chi = none := by rw [Subscriber.source, hnone, Option.bind_none]
        dsimp only
        rw [hsource, lastValue, effects, Buffering.disconnectChannel, List.filterMap_cons,
          Task.slotEffect, if_pos rfl]
        rfl
    | external =>
        have hp : s.place chi = some r.place := by rw [Subscriber.place, hr, Option.map_some]
        have hp' : s'.place chi = none := by rw [Subscriber.place, hnone, Option.map_none]
        dsimp only
        rw [hp, hp', effects, Buffering.disconnectChannel, List.filterMap_cons, Task.move,
          if_pos rfl]
        exact ⟨.inr rfl, rfl⟩
  · have hsame := hremote chi hchi
    have hsource : s'.source chi = s.source chi := by
      rw [Subscriber.source, Subscriber.source, hsame]
      cases remoteOf s.channels chi with
      | none => rfl
      | some r => exact hring r
    unfold Told
    cases b with
    | owned =>
        dsimp only
        rw [hsource]
        refine lastValue_skip (effects_eq_nil fun t ht => ?_)
        obtain rfl := List.mem_singleton.mp ht
        exact if_neg (Ne.symm hchi)
    | external =>
        have hp : s'.place chi = s.place chi := by rw [Subscriber.place, hsame]; rfl
        have hskip : effects (Task.move chi) (Buffering.external.disconnectChannel ch
            r.localFlowIndex r.channelInFlow) = [] := by
          refine effects_eq_nil fun t ht => ?_
          obtain rfl := List.mem_singleton.mp ht
          refine if_neg fun heq => hchi ?_
          exact (RingId.external.inj heq).symm
        dsimp only
        rw [hskip, hp]
        rfl

/-- A channel is disconnected. -/
theorem of_disconnect {ch : Nat} {r : ChannelOtherEnd} (hrings : b = .owned → HasRings s)
    (hr : remoteOf s.channels ch = some r) (hnone : remoteOf s'.channels ch = none)
    (hremote : ∀ chi, chi ≠ ch → remoteOf s'.channels chi = remoteOf s.channels chi)
    (hring : ∀ r', slotRing s'.flows r' = slotRing s.flows r')
    (hspawned : s'.spawned = s.spawned ++
      b.disconnectChannel ch r.localFlowIndex r.channelInFlow) : Turn b s s' := by
  refine ⟨⟨_, hspawned, told_disconnect hr hnone hremote hring⟩, fun hb chi hsome => ?_⟩
  have hchi : chi ≠ ch := by
    rintro rfl
    rw [hnone] at hsome
    cases hsome
  have hsame := hremote chi hchi
  have hold := hrings hb chi (hsame ▸ hsome)
  rw [Subscriber.source, hsame]
  rw [Subscriber.source] at hold
  cases hr' : remoteOf s.channels chi with
  | none =>
      rw [hr'] at hold
      cases hold
  | some r' =>
      rw [hr', Option.bind_some] at hold
      rw [Option.bind_some, hring]
      exact hold

theorem unsubscribe {ch : Nat} {removeFromInfo : Bool}
    (hrings : cfg.buffering = .owned → HasRings s)
    (h : s.unsubscribe cfg ch removeFromInfo = some s') : Turn cfg.buffering s s' := by
  obtain ⟨hch, ⟨_, rfl⟩ | ⟨sub, s₁, hsub, hleave, rfl⟩⟩ := Subscriber.unsubscribe_cases h
  · exact .refl hrings
  unfold Subscriber.leave at hleave
  split at hleave
  · next hnone =>
      obtain rfl := Option.some.inj hleave
      have hfree : remoteOf s.channels ch = none := by rw [remoteOf, hsub, Option.bind_some, hnone]
      have hremote := fun chi => RefcountsExact.remoteOf_set_free hch hfree (o := none) rfl chi
      refine of_same hrings (List.append_nil _).symm (List.forall_mem_nil _) hremote ?_
      exact source_congr hremote fun _ _ _ => rfl
  · next r hr =>
      obtain ⟨hchannels, hspawned, hring⟩ := slotRing_release hleave
      have hremote : remoteOf s.channels ch = some r := by rw [remoteOf, hsub, Option.bind_some, hr]
      have hset := fun chi => RefcountsExact.remoteOf_set (o := none) hch chi
      refine of_disconnect hrings hremote ?_ (fun chi hne => ?_) hring ?_
      · dsimp only
        rw [hchannels]
        exact (hset ch).trans (if_pos rfl)
      · dsimp only
        rw [hchannels]
        exact (hset chi).trans (if_neg hne)
      · dsimp only
        rw [hspawned]
        rfl

theorem unsubscribe_leaves {ch : Nat} {removeFromInfo : Bool}
    (h : s.unsubscribe cfg ch removeFromInfo = some s') :
    s'.channels.length = s.channels.length ∧ remoteOf s'.channels ch = none := by
  obtain ⟨hch, ⟨hnone, rfl⟩ | ⟨sub, s₁, hsub, hleave, rfl⟩⟩ := Subscriber.unsubscribe_cases h
  · exact ⟨rfl, by rw [remoteOf, hnone, Option.bind_none]⟩
  · have hchannels : s₁.channels = s.channels := by
      unfold Subscriber.leave at hleave
      split at hleave
      · rw [← Option.some.inj hleave]
      · exact (slotRing_release hleave).1
    dsimp only
    rw [hchannels]
    exact ⟨List.length_set, (RefcountsExact.remoteOf_set hch _ _).trans (if_pos rfl)⟩

theorem subscribe {ch : Nat} {txChannelName txHostname : String}
    (hrings : cfg.buffering = .owned → HasRings s)
    (h : s.subscribe cfg ch txChannelName txHostname = some s') : Turn cfg.buffering s s' := by
  obtain ⟨hch, s₁, hfirst, rfl⟩ := Subscriber.subscribe_cases h
  have hturn : Turn cfg.buffering s s₁ ∧ s₁.channels.length = s.channels.length ∧
      remoteOf s₁.channels ch = none := by
    rcases hfirst with ⟨hnone, rfl⟩ | hun
    · exact ⟨.refl hrings, rfl, by rw [remoteOf, hnone, Option.bind_none]⟩
    · exact ⟨unsubscribe hrings hun, unsubscribe_leaves hun⟩
  obtain ⟨hturn, hlen, hfree⟩ := hturn
  have hremote := fun chi => RefcountsExact.remoteOf_set_free (hlen ▸ hch) hfree
    (o := some ⟨txChannelName, txHostname, none⟩) rfl chi
  refine hturn.trans (of_same hturn.rings (List.append_nil _).symm (List.forall_mem_nil _)
    hremote ?_)
  exact source_congr hremote fun _ _ _ => rfl

theorem loadState {saved : List Subscriber.SavedChannelState}
    (hrings : cfg.buffering = .owned → HasRings s) (h : s.loadState cfg saved = some s') :
    Turn cfg.buffering s s' := by
  induction saved generalizing s with
  | nil =>
      obtain rfl := Option.some.inj h
      exact .refl hrings
  | cons chst saved ih =>
      rw [Subscriber.loadState] at h
      dsimp only at h
      split at h
      · exact ih hrings h
      obtain ⟨s₁, hsub, h⟩ := Option.bind_eq_some_iff.mp h
      have hinfo : Turn cfg.buffering s { s with
          subscriptionsInfo := s.subscriptionsInfo.set
            (chst.localChannelId.setWidth 64 - 1 : Usize).toNat
            (some ⟨chst.txChannelName, chst.txHostname, .unresolved⟩) } :=
        of_same hrings (List.append_nil _).symm (List.forall_mem_nil _) (fun _ => rfl)
          fun _ => rfl
      have hturn := hinfo.trans (subscribe hinfo.rings hsub)
      exact hturn.trans (ih hturn.rings h)

/-! ## The scan -/

theorem orphan (hrings : cfg.buffering = .owned → HasRings s) (f ch : Nat) :
    Turn cfg.buffering s (s.orphan cfg f ch) := by
  unfold Subscriber.orphan
  cases hslot : s.slotIn f ch with
  | none => exact .refl hrings
  | some c =>
      obtain ⟨r, hr, hplace⟩ : ∃ r, remoteOf s.channels ch = some r ∧
          r.localFlowIndex = f ∧ r.channelInFlow = c := by
        obtain ⟨r, hfilter, rfl⟩ := Option.map_eq_some_iff.mp hslot
        obtain ⟨hr, hf⟩ := Option.filter_eq_some_iff.mp hfilter
        exact ⟨r, hr, by simpa using hf, rfl⟩
      obtain ⟨rfl, rfl⟩ := hplace
      have hset : ∀ chi, remoteOf (s.channels.modify ch
          (Option.map ({ · with remote := none }))) chi =
          if chi = ch then none else remoteOf s.channels chi := by
        intro chi
        rw [remoteOf, join_modify]
        by_cases hchi : chi = ch
        · rw [if_pos hchi, if_pos hchi]
          cases s.channels[chi]?.join <;> rfl
        · rw [if_neg hchi, if_neg hchi]
          rfl
      refine of_disconnect hrings hr ?_ (fun chi hne => ?_) (fun _ => rfl) rfl
      · exact (hset ch).trans (if_pos rfl)
      · exact (hset chi).trans (if_neg hne)

theorem markReceiving (hrings : b = .owned → HasRings s) (f ch : Nat) (source : FlowSource) :
    Turn b s (s.markReceiving f source ch) := by
  unfold Subscriber.markReceiving
  split
  · exact .refl hrings
  · exact of_same hrings (List.append_nil _).symm (List.forall_mem_nil _) (fun _ => rfl)
      fun _ => rfl

theorem scanChannels (hrings : cfg.buffering = .owned → HasRings s) (env : Subscriber.ScanEnv)
    (f : Nat) (flow : RxFlow) : Turn cfg.buffering s (s.scanChannels cfg env f flow) := by
  unfold Subscriber.scanChannels
  split
  · exact foldl_inv (I := fun v => Turn cfg.buffering s v)
      (fun v chi _ hv => hv.trans (orphan hv.rings f chi)) (.refl hrings)
  split
  · exact foldl_inv (I := fun v => Turn cfg.buffering s v)
      (fun v chi _ hv => hv.trans (markReceiving hv.rings f chi flow.source)) (.refl hrings)
  · exact .refl hrings

theorem scanLoop {env : Subscriber.ScanEnv} {flows : List (Option RxFlow)} {n : Nat}
    {destroy : List Subscriber.DestroyFlow} (hrings : cfg.buffering = .owned → HasRings s)
    (h : s.scanLoop cfg env n flows = some (s', destroy)) : Turn cfg.buffering s s' := by
  induction flows generalizing s n destroy with
  | nil =>
      cases h
      exact .refl hrings
  | cons o flows ih =>
      cases o with
      | none => exact ih hrings h
      | some flow =>
          obtain ⟨⟨s₁, d₁⟩, h₁, h⟩ := Option.bind_eq_some_iff.mp h
          obtain ⟨⟨s₂, d₂⟩, h₂, h⟩ := Option.bind_eq_some_iff.mp h
          cases h
          have hchannels := scanChannels hrings env n flow
          have hone : Turn cfg.buffering s s₁ := by
            unfold Subscriber.scanFlow at h₁
            dsimp only at h₁
            split at h₁
            · split at h₁
              · cases h₁
              · cases h₁
                exact hchannels
              · cases h₁
                refine hchannels.trans (of_same hchannels.rings rfl (fun t ht => ?_) (fun _ => rfl)
                  fun _ => rfl)
                obtain rfl := List.mem_singleton.mp ht
                rfl
            · cases h₁
              exact hchannels
          exact hone.trans (ih hone.rings h₂)

/-- The scan; the flows that go are those that no channel is connected to. -/
theorem scanFlows {env : Subscriber.ScanEnv} {destroy : List Subscriber.DestroyFlow}
    (hrings : cfg.buffering = .owned → HasRings s) (hexact : RefcountsExact s')
    (h : s.scanFlows cfg env = some (s', destroy)) : Turn cfg.buffering s s' := by
  unfold Subscriber.scanFlows at h
  obtain ⟨⟨s₁, d₁⟩, h₁, h⟩ := Option.bind_eq_some_iff.mp h
  cases h
  have hloop := scanLoop hrings h₁
  refine hloop.trans (of_same hloop.rings (List.append_nil _).symm (List.forall_mem_nil _)
    (fun _ => rfl) (source_congr (fun _ => rfl) fun chi r hr => ?_))
  obtain ⟨flow, hflow, _⟩ := hexact.slots chi r hr
  have hold : flowAt s₁.flows r = some flow := by
    change (_ : List (Option RxFlow))[_]?.join = _ at hflow
    rw [RefcountsExact.scan_flows] at hflow
    exact (Option.filter_eq_some_iff.mp hflow).1
  rw [slotRing, slotRing, hflow, hold]

/-! ## Connecting -/

theorem slotRing_occupy {now : Clock} {r : ChannelOtherEnd} {flow : RxFlow} {chi : Nat} {rc : Int}
    {rbOutput : Option RingId} (hflow : s.flows[r.localFlowIndex]?.join = some flow)
    (hrb : flow.channelsRbOutputs[r.channelInFlow]? = some rbOutput) (r' : ChannelOtherEnd) :
    slotRing (s.flows.set r.localFlowIndex (some (s.occupy cfg now r flow chi rc rbOutput))) r' =
      if r'.place = r.place then
        (cfg.buffering.connectChannel (.owned s.nextRing now) rbOutput chi flow.latencySamples).1
      else slotRing s.flows r' := by
  rw [slotRing, slotRing, flowAt, flowAt, join_set (join_lt hflow)]
  by_cases hf : r'.localFlowIndex = r.localFlowIndex
  · rw [if_pos hf, hf, hflow, Option.bind_some, Option.bind_some, Subscriber.occupy]
    dsimp only
    by_cases hc : r'.channelInFlow = r.channelInFlow
    · have hlt := (List.getElem?_eq_some_iff.mp hrb).1
      rw [if_pos (Prod.ext hf hc), hc, List.getElem?_set_self hlt, Option.join_some]
    · have hne : r'.place ≠ r.place := fun h => hc (Prod.mk.inj h).2
      rw [if_neg hne, List.getElem?_set_ne (Ne.symm hc)]
  · have hne : r'.place ≠ r.place := fun h => hf (Prod.mk.inj h).1
    rw [if_neg hf, if_neg hne]

/-- With buffers of its own, the collector is told the ring of the slot. -/
theorem connectTasks_owned (hb : cfg.buffering = .owned) (now : Clock) (r : ChannelOtherEnd)
    (flow : RxFlow) (chi : Nat) (rbOutput : Option RingId) (chi' : Nat) (v : Option Nat) :
    lastValue (Task.slotEffect chi') v (s.connectTasks cfg now r flow chi rbOutput) =
      if chi' = chi then some (rbOutput.getD (.owned s.nextRing now)).number else v := by
  unfold Subscriber.connectTasks
  rw [hb]
  by_cases hchi : chi' = chi
  · rw [if_pos hchi, hchi]
    cases rbOutput <;>
      simp [Buffering.connectChannel, lastValue, effects, List.filterMap_cons, Task.slotEffect]
  · rw [if_neg hchi]
    refine lastValue_skip (effects_eq_nil fun t ht => ?_)
    cases rbOutput <;> simp [Buffering.connectChannel] at ht
    · rcases ht with rfl | rfl
      · exact if_neg (Ne.symm hchi)
      · rfl
    · rw [ht]
      exact if_neg (Ne.symm hchi)

/-- With buffers from outside, the receiver is told to put the channel's ring
among the sinks of the slot. -/
theorem connectTasks_external (hb : cfg.buffering = .external) (now : Clock) (r : ChannelOtherEnd)
    (flow : RxFlow) (chi : Nat) (rbOutput : Option RingId) (chi' : Nat) :
    effects (Task.move chi') (s.connectTasks cfg now r flow chi rbOutput) =
      if chi' = chi then [.put r.place] else [] := by
  have htasks : s.connectTasks cfg now r flow chi rbOutput =
      [.receiverConnect r.localFlowIndex r.channelInFlow chi (.external chi)] := by
    rw [Subscriber.connectTasks, hb]
    rfl
  rw [htasks, effects, List.filterMap_cons, Task.move]
  by_cases hchi : chi' = chi
  · rw [if_pos hchi, if_pos (by rw [hchi])]
    rfl
  · have hne : RingId.external chi ≠ .external chi' := fun h => hchi (RingId.external.inj h).symm
    rw [if_neg hchi, if_neg hne]
    rfl

/-- The sources afterwards: the ring of a slot that has one stays. -/
theorem source_connect (hb : cfg.buffering = .owned) (hrings : HasRings s) {now : Clock}
    {r : ChannelOtherEnd} {flow : RxFlow} {chi : Nat} {rc : Int} {rbOutput : Option RingId}
    {sub : ChannelSubscription} (hsub : s.channels[chi]?.join = some sub)
    (hflow : s.flows[r.localFlowIndex]?.join = some flow)
    (hrb : flow.channelsRbOutputs[r.channelInFlow]? = some rbOutput)
    (hflows : s'.flows =
      s.flows.set r.localFlowIndex (some (s.occupy cfg now r flow chi rc rbOutput)))
    (hchannels : s'.channels = s.channels.set chi (some { sub with remote := some r }))
    (chi' : Nat) : s'.source chi' =
      if chi' = chi then some (rbOutput.getD (.owned s.nextRing now)) else s.source chi' := by
  rw [Subscriber.source, hchannels, hflows, RefcountsExact.remoteOf_set (join_lt hsub)]
  by_cases hchi : chi' = chi
  · rw [if_pos hchi, if_pos hchi, Option.bind_some, Option.bind_some, slotRing_occupy hflow hrb,
      if_pos rfl, hb]
    rfl
  rw [if_neg hchi, if_neg hchi, Subscriber.source]
  cases hr' : remoteOf s.channels chi' with
  | none => rfl
  | some r' =>
      rw [Option.bind_some, Option.bind_some, slotRing_occupy hflow hrb]
      by_cases hp : r'.place = r.place
      · obtain ⟨hf, hc⟩ := Prod.mk.inj hp
        have hslot : slotRing s.flows r' = rbOutput := by
          rw [slotRing, flowAt, hf, hc, hflow, Option.bind_some, hrb, Option.join_some]
        have hsome := hrings chi' (by rw [hr']; rfl)
        rw [Subscriber.source, hr', Option.bind_some, hslot] at hsome
        obtain ⟨ring, rfl⟩ := Option.isSome_iff_exists.mp hsome
        rw [if_pos hp, hslot, hb]
        rfl
      · rw [if_neg hp]

/-- A channel that is not connected is. -/
theorem connect {now : Clock} {r : ChannelOtherEnd} {chi : Nat}
    (hrings : cfg.buffering = .owned → HasRings s) (hfree : remoteOf s.channels chi = none)
    (h : s.connect cfg now r chi = some s') : Turn cfg.buffering s s' := by
  obtain ⟨sub, flow, hsub, hflow, ⟨_, rfl⟩ | ⟨_, rc, rbOutput, _, hrb, hs'⟩⟩ :=
    Subscriber.connect_cases h
  · exact .refl hrings
  obtain ⟨hflows, hchannels, hspawned⟩ : s'.flows =
        s.flows.set r.localFlowIndex (some (s.occupy cfg now r flow chi rc rbOutput)) ∧
      s'.channels = s.channels.set chi (some { sub with remote := some r }) ∧
      s'.spawned = s.spawned ++ s.connectTasks cfg now r flow chi rbOutput := by
    rw [hs']
    exact ⟨rfl, rfl, rfl⟩
  have hremote : ∀ chi', remoteOf s'.channels chi' =
      if chi' = chi then some r else remoteOf s.channels chi' := fun chi' => by
    rw [hchannels]
    exact RefcountsExact.remoteOf_set (join_lt hsub) _ chi'
  have hsource := fun (hb : cfg.buffering = .owned) =>
    source_connect hb (hrings hb) hsub hflow hrb hflows hchannels
  refine ⟨⟨_, hspawned, fun chi' => ?_⟩, fun hb chi' hsome => ?_⟩
  · unfold Told
    cases hb : cfg.buffering with
    | owned =>
        dsimp only
        rw [connectTasks_owned hb, hsource hb]
        by_cases hchi : chi' = chi
        · rw [if_pos hchi, if_pos hchi, Option.map_some]
        · rw [if_neg hchi, if_neg hchi]
    | external =>
        dsimp only
        rw [connectTasks_external hb, Subscriber.place, Subscriber.place, hremote]
        by_cases hchi : chi' = chi
        · rw [if_pos hchi, if_pos hchi, hchi, hfree]
          exact ⟨rfl, rfl⟩
        · rw [if_neg hchi, if_neg hchi]
          rfl
  · rw [hremote] at hsome
    rw [hsource hb]
    by_cases hchi : chi' = chi
    · rw [if_pos hchi]
      rfl
    · rw [if_neg hchi] at hsome ⊢
      exact hrings hb chi' hsome

/-- The channels of an update, none of which is connected. -/
theorem connect_all {chis : List Nat} {r : ChannelOtherEnd} {jobs : List Job}
    {sent : List ChannelSourceUpdate} {now : Clock}
    (hrings : cfg.buffering = .owned → HasRings s) (hexact : RefcountsExact s)
    (hp : Promised s jobs (⟨chis, r⟩ :: sent))
    (h : chis.foldlM (Subscriber.connect cfg now r) s = some s') : Turn cfg.buffering s s' := by
  induction chis generalizing s with
  | nil =>
      obtain rfl := Option.some.inj h
      exact .refl hrings
  | cons chi chis ih =>
      rw [List.foldlM_cons] at h
      obtain ⟨s₁, h₁, h⟩ := Option.bind_eq_some_iff.mp h
      have hfree := hp.unserved ⟨chi :: chis, r⟩ (List.mem_append_right _ List.mem_cons_self) chi
        List.mem_cons_self
      have hturn := connect hrings hfree h₁
      obtain ⟨hexact₁, hp₁, _⟩ := Promised.connect hexact hp h₁
      exact hturn.trans (ih hturn.rings hexact₁ hp₁ h)

end Turn

/-! ## Steps -/

namespace RxWorld

variable {cfg : RxConfig} {w w' : RxWorld}

/-- A future leaves the rings of the flows alone, and spawns nothing. -/
theorem runJob_rings {job : Job} {rest rest' : List Job} {outcome : JobOutcome}
    {batch : Option (List ChannelSourceUpdate)}
    (hrun : w.runJob cfg job rest outcome = some (w', rest', batch)) :
    w'.worker.spawned = w.worker.spawned ∧ ∀ r, (flowAt w'.worker.flows r).isSome →
      slotRing w'.worker.flows r = slotRing w.worker.flows r := by
  have hgone : ∀ (flows : List (Option RxFlow)) (f : Nat) (r : ChannelOtherEnd),
      (flowAt (flows.set f none) r).isSome → slotRing (flows.set f none) r = slotRing flows r := by
    intro flows f r hsome
    rw [flowAt, join_set_none] at hsome
    rw [slotRing, slotRing, flowAt, flowAt, join_set_none]
    by_cases hr : r.localFlowIndex = f
    · rw [if_pos hr] at hsome
      cases hsome
    · rw [if_neg hr]
  unfold RxWorld.runJob at hrun
  split at hrun
  · cases hrun
    exact ⟨rfl, fun _ _ => rfl⟩
  · cases hrun
    exact ⟨rfl, fun _ _ => rfl⟩
  · cases hrun
    exact ⟨rfl, fun _ _ => rfl⟩
  · cases hrun
    exact ⟨rfl, hgone _ _⟩
  · split at hrun
    · cases hrun
      exact ⟨rfl, fun _ _ => rfl⟩
    · obtain ⟨worker, hfail, hrun⟩ := Option.bind_eq_some_iff.mp hrun
      cases hrun
      obtain ⟨_, hflows, hspawned⟩ := txFail_all hfail
      rw [← hflows]
      exact ⟨hspawned, hgone _ _⟩
  · split at hrun
    · cases hrun
      exact ⟨rfl, fun _ _ => rfl⟩
    split at hrun
    · cases hrun
      exact ⟨rfl, fun _ _ => rfl⟩
    · obtain ⟨flow, hflow, hrun⟩ := Option.bind_eq_some_iff.mp hrun
      cases hrun
      exact ⟨rfl, fun r _ => Turn.slotRing_set hflow (by rfl) r⟩
  · cases hrun

/-- What an event says to the audio end, if it is not itself at the audio end. -/
theorem RefInv.turn (h : w.RefInv) {e : RxEvent} (hnot : ∀ i, e ≠ .task i)
    (hrings : cfg.buffering = .owned → HasRings w.worker) (hrun : w.step cfg e = some w') :
    Turn cfg.buffering w.worker w'.worker := by
  have hrefs := (h.step hrun).1
  have hsame : w'.worker.channels = w.worker.channels → w'.worker.flows = w.worker.flows →
      w'.worker.spawned = w.worker.spawned → Turn cfg.buffering w.worker w'.worker := by
    intro hchannels hflows hspawned
    refine .of_same hrings (hspawned.trans (List.append_nil _).symm) (List.forall_mem_nil _)
      (fun chi => by rw [hchannels]) fun chi => ?_
    rw [Subscriber.source, Subscriber.source, hchannels, hflows]
  -- flows that are used stay with their rings
  have hflows : w'.worker.channels = w.worker.channels →
      w'.worker.spawned = w.worker.spawned →
      (∀ r, (flowAt w'.worker.flows r).isSome → (flowAt w.worker.flows r).isSome →
        slotRing w'.worker.flows r = slotRing w.worker.flows r) →
      Turn cfg.buffering w.worker w'.worker := by
    intro hchannels hspawned hring
    refine .of_same hrings (hspawned.trans (List.append_nil _).symm) (List.forall_mem_nil _)
      (fun chi => by rw [hchannels]) (Turn.source_congr (fun chi => by rw [hchannels]) ?_)
    intro chi r hr
    obtain ⟨flow, hflow, _⟩ := h.exact.slots chi r hr
    obtain ⟨flow', hflow', _⟩ := hrefs.exact.slots chi r (by rw [hchannels]; exact hr)
    exact hring r (by rw [hflow']; rfl) (by rw [hflow]; rfl)
  cases step_case hrun with
  | quiet hquiet => exact hsame hquiet.channels hquiet.flows hquiet.spawned
  | handle _ hrun =>
      obtain ⟨c, queue, next, _, hnext, rfl⟩ := handle_cases hrun
      cases c with
      | shutdown =>
          obtain rfl := Option.some.inj hnext
          exact .refl hrings
      | forceRefresh =>
          obtain rfl := Option.some.inj hnext
          exact .refl hrings
      | subscribe ch txChannelName txHostname =>
          obtain ⟨worker, hsub, rfl⟩ := Option.map_eq_some_iff.mp hnext
          exact .subscribe hrings hsub
      | unsubscribe ch =>
          obtain ⟨worker, hun, rfl⟩ := Option.map_eq_some_iff.mp hnext
          exact .unsubscribe hrings hun
  | resolve _ hrun =>
      unfold RxWorld.resolve at hrun
      obtain ⟨p, hplan, hrun⟩ := Option.bind_eq_some_iff.mp hrun
      obtain rfl := Option.some.inj hrun
      have hold := (planResolve_placed hplan (fun chi r hr => h.exact.inUse hr) h.bundles).1.old
      refine hflows rfl rfl fun r _ hsome => ?_
      obtain ⟨flow, hflow⟩ := Option.isSome_iff_exists.mp hsome
      have hnew : flowAt p.flows r = some flow := hold _ flow hflow
      dsimp only
      rw [slotRing, slotRing, hflow, hnew]
  | job hrun =>
      obtain ⟨r, job, rest, w₁, rest', batch, _, _, hjob, rfl⟩ := job_cases hrun
      obtain ⟨hspawned, hring⟩ := runJob_rings hjob
      exact hflows (runJob_flows hjob).1 hspawned fun r hsome _ => hring r hsome
  | apply hrun =>
      obtain ⟨r, upd, rest, worker, hphase, happlying, happly, rfl⟩ := apply_cases hrun
      exact .connect_all hrings h.exact (h.first hphase happlying)
        (Subscriber.applyUpdate_cases happly)
  | scan _ hrun =>
      obtain ⟨⟨worker, destroy⟩, hscan, hrun⟩ := Option.bind_eq_some_iff.mp hrun
      obtain rfl := Option.some.inj hrun
      exact .scanFlows hrings hrefs.exact hscan
  | destroy hrun =>
      obtain ⟨ds, d, _, _, rfl⟩ := destroy_cases hrun
      exact hsame rfl rfl rfl
  | task _ => exact absurd rfl (hnot _)
  | receiver _ => exact hsame rfl rfl rfl

end RxWorld

end Inferno
