import Inferno.RefcountsWorld
import Inferno.SubscriberTasks

/-!
# What the receive flows say they carry

`FlowsReceiver` keeps a bit for each slot of a flow and each local channel,
which is what a controller is told. With buffers of its own the subscriber sets
a bit only when it hands over a new sink, and clears none: the bits are true in
runs in which no connected channel is unsubscribed, every update is for one
channel and for a slot without a ring, and no sink of a flow that is gone is
still on its way when its index is used again (`maps_true`). An alias is enough
to make them false: `alias_has_no_bit`.
-/

namespace Inferno

open Partial

namespace RxWorld

/-- A local channel is connected to a slot. -/
def ConnectedTo (w : RxWorld) (f c chi : Nat) : Prop :=
  ∃ r, remoteOf w.worker.channels chi = some r ∧ r.localFlowIndex = f ∧ r.channelInFlow = c

/-- Every bit says whether the channel is connected to the slot. -/
def MapsTrue (w : RxWorld) : Prop :=
  ∀ (f : Nat) info, w.receiver.flowsInfo[f]?.join = some info →
    ∀ (c : Nat) bits, info.channelsMap[c]? = some bits →
      ∀ chi : Nat, bits[chi]? = some true ↔ w.ConnectedTo f c chi

/-- The channel a command is about. -/
def commandChannel : SubscriberCommand → Option Nat
  | .subscribe ch _ _ => some ch
  | .unsubscribe ch => some ch
  | .shutdown => none
  | .forceRefresh => none

/-- A sink for a slot of a flow. -/
def sinkFor (f : Nat) : Task → Bool
  | .receiverConnect f' _ _ _ => f' = f
  | _ => false

/-- The slot of an update has no ring. -/
def noRing (flows : List (Option RxFlow)) (r : ChannelOtherEnd) : Bool :=
  (flowAt flows r).all fun flow => flow.channelsRbOutputs[r.channelInFlow]?.join.isNone

/-- The condition on an event. Commands are for channels that are not
connected; an update is for one channel, and for a slot that has no ring; and a
flow gets its socket when no sink for an older flow at its index is on its
way. -/
def MapFits (w : RxWorld) : RxEvent → Prop
  | .handle => ∀ cmd ∈ w.queue.head?, ∀ ch ∈ commandChannel cmd, remoteOf w.worker.channels ch = none
  | .apply => match w.phase with
      | .resolving r => ∀ upd ∈ r.applying.head?,
          upd.localChannelIndices.length = 1 ∧ noRing w.worker.flows upd.remote = true
      | _ => True
  | .job k _ => match w.phase with
      | .resolving r => ∀ jobs ∈ r.executors[k]?, ∀ job ∈ jobs.head?, ∀ f ∈ job.newFlow,
          ∀ t ∈ w.worker.spawned, sinkFor f t = false
      | _ => True
  | _ => True

/-- A condition on the resolution that is under way, if one is. -/
def decidableResolving {P : Resolving → Prop} (hP : ∀ r, Decidable (P r)) :
    (phase : WorkerPhase) → Decidable (match phase with | .resolving r => P r | _ => True)
  | .resolving r => hP r
  | .idle => isTrue trivial
  | .destroying _ => isTrue trivial

instance (w : RxWorld) : (e : RxEvent) → Decidable (w.MapFits e)
  | .handle => inferInstanceAs (Decidable (∀ cmd ∈ w.queue.head?, ∀ ch ∈ commandChannel cmd,
      remoteOf w.worker.channels ch = none))
  | .apply => decidableResolving (fun _ => inferInstance) w.phase
  | .job _ _ => decidableResolving (fun _ => inferInstance) w.phase
  | .subscribe .. | .unsubscribe _ | .saveState | .shutdown | .deliver _ | .resolve _
  | .receive .. | .finish | .scan _ | .destroy _ | .task _ | .receiver _ => isTrue trivial

/-- The socket of a flow is still to be removed. -/
def Doomed (w : RxWorld) (f : Nat) : Prop :=
  .removeSocket f ∈ w.worker.spawned ∨
    ∃ ds, w.phase = .destroying ds ∧ f ∈ ds.map Subscriber.DestroyFlow.flowIndex

/-- The worker is idle and all spawned tasks have run. -/
def isQuiet (w : RxWorld) : Bool :=
  match w.phase, w.worker.spawned with
  | .idle, [] => true
  | _, _ => false

theorem isQuiet_iff {w : RxWorld} :
    w.isQuiet = true ↔ w.phase = .idle ∧ w.worker.spawned = [] := by
  unfold isQuiet
  split
  · next hphase hspawned => simp [hphase, hspawned]
  · next hother => simpa using hother

/-- A bit is set, or its sink is on its way. -/
def WillBeSet (w : RxWorld) (f c chi : Nat) (bits : List Bool) : Prop :=
  bits[chi]? = some true ∨ ∃ sink, .receiverConnect f c chi sink ∈ w.worker.spawned

/-- The invariant. -/
structure MapInv (w : RxWorld) : Prop where
  refs : w.RefInv
  width : w.receiver.maxChannels = w.worker.channels.length
  widths : ∀ (f : Nat) info, w.receiver.flowsInfo[f]?.join = some info →
    ∀ bits ∈ info.channelsMap, bits.length = w.worker.channels.length
  noClear : ∀ f c chi ring, Task.receiverDisconnect f c chi ring ∉ w.worker.spawned
  maps : ∀ (f : Nat) info, ¬ w.Doomed f → w.receiver.flowsInfo[f]?.join = some info →
    ∀ (c : Nat) bits, info.channelsMap[c]? = some bits →
      ∀ chi, w.WillBeSet f c chi bits ↔ w.ConnectedTo f c chi

/-- When nothing is under way the bits are true. -/
theorem MapInv.mapsTrue {w : RxWorld} (h : w.MapInv) (hquiet : w.isQuiet = true) : w.MapsTrue := by
  obtain ⟨hidle, hspawned⟩ := isQuiet_iff.mp hquiet
  intro f info hinfo c bits hbits chi
  have hdoomed : ¬ w.Doomed f := by
    rintro (hmem | ⟨ds, hds, _⟩)
    · rw [hspawned] at hmem
      cases hmem
    · rw [hidle] at hds
      cases hds
  have hmaps := h.maps f info hdoomed hinfo c bits hbits chi
  rw [WillBeSet, hspawned] at hmaps
  simpa using hmaps

end RxWorld

/-! ## The receiver's table -/

namespace FlowsReceiver

theorem addSocket_flowsInfo (rx : FlowsReceiver) (f : Nat) (sendKeepalives : Bool)
    (bytesPerSample channelsCount latencySamples i : Nat) (info : RxFlowInfo)
    (h : (rx.addSocket f sendKeepalives bytesPerSample channelsCount latencySamples).flowsInfo[i]?.join =
      some info) :
    (i = f ∧ info.channelsMap = List.replicate channelsCount (List.replicate rx.maxChannels false)) ∨
      (rx.flowsInfo[i]?.join = some info ∧ (i = f → rx.flowsInfo.length ≤ f)) := by
  unfold addSocket at h
  split at h
  · next hge => exact .inr ⟨h, fun _ => hge⟩
  · next hlt =>
      dsimp only at h
      rw [join_set (Nat.not_le.mp hlt)] at h
      split at h
      · next heq =>
          obtain rfl := Option.some.inj h
          exact .inl ⟨heq, rfl⟩
      · next hne => exact .inr ⟨h, fun heq => absurd heq hne⟩

theorem removeSocket_flowsInfo (rx : FlowsReceiver) (f i : Nat) :
    (rx.removeSocket f).flowsInfo[i]?.join = if i = f then none else rx.flowsInfo[i]?.join := by
  unfold removeSocket
  split
  · next hge =>
      split
      · next heq => rw [heq, List.getElem?_eq_none hge, Option.join_none]
      · rfl
  · exact join_set_none _ _ _

/-- A bit is set where there is one, and nothing is done elsewhere. -/
theorem mapChannel_cases (rx : FlowsReceiver) (f c chi : Nat) (bit : Bool) :
    (rx.mapChannel f c chi bit = none ∧
      ∀ info, rx.flowsInfo[f]?.join = some info → info.channelsMap.length ≤ c) ∨
    ∃ info, rx.flowsInfo[f]?.join = some info ∧ c < info.channelsMap.length ∧
      rx.mapChannel f c chi bit = some { rx with
        flowsInfo := rx.flowsInfo.set f (some { info with
          channelsMap := info.channelsMap.modify c (·.set chi bit) }) } := by
  unfold mapChannel
  cases hinfo : rx.flowsInfo[f]?.join with
  | none => exact .inl ⟨rfl, fun _ h => (by cases h)⟩
  | some info =>
      cases hbits : info.channelsMap[c]? with
      | none =>
          refine .inl ⟨by simp [hbits], fun info' h => ?_⟩
          obtain rfl := Option.some.inj h
          exact List.getElem?_eq_none_iff.mp hbits
      | some bits =>
          obtain ⟨hc, hget⟩ := List.getElem?_eq_some_iff.mp hbits
          refine .inr ⟨info, rfl, hc, ?_⟩
          have hmodify : info.channelsMap.modify c (·.set chi bit) =
              info.channelsMap.set c (bits.set chi bit) := by
            rw [List.modify_eq_set, hbits, Option.getD_some]
          simp [hbits, hmodify]

theorem connectChannel_flowsInfo (rx : FlowsReceiver) (f c chi : Nat) (sink : RingId) (i : Nat) :
    (rx.connectChannel f c chi sink).flowsInfo[i]?.join =
      if i = f then (rx.flowsInfo[i]?.join).map fun info => { info with
        channelsMap := info.channelsMap.modify c (·.set chi true) }
      else rx.flowsInfo[i]?.join := by
  unfold connectChannel
  rcases rx.mapChannel_cases f c chi true with ⟨hmap, hle⟩ | ⟨info, hinfo, _, hmap⟩
  · rw [hmap]
    dsimp only
    split
    · next heq =>
        subst heq
        cases hinfo : rx.flowsInfo[i]?.join with
        | none => rfl
        | some info => rw [Option.map_some, List.modify_eq_self (hle info hinfo)]
    · rfl
  · rw [hmap]
    dsimp only
    rw [join_set (join_lt hinfo)]
    split
    · next heq => rw [heq, hinfo, Option.map_some]
    · rfl

theorem handle_flowsInfo {now : Option Clock} {ringSize : RingId → Nat} {rx rx' : FlowsReceiver}
    {c : RxCommand} (h : rx.handle now ringSize c = some rx') :
    rx'.flowsInfo = rx.flowsInfo ∧ rx'.maxChannels = rx.maxChannels := by
  cases handled_of_handle h <;> exact ⟨rfl, rfl⟩

end FlowsReceiver

/-! ## The steps -/

namespace RxWorld

variable {cfg : RxConfig} {w w' : RxWorld}

/-- Events that change neither who is connected, nor the bits, nor what is on
its way to them. -/
theorem MapInv.of_tasks (h : w.MapInv) (hrefs : w'.RefInv)
    (hlen : w'.worker.channels.length = w.worker.channels.length)
    (hremote : ∀ chi, remoteOf w'.worker.channels chi = remoteOf w.worker.channels chi)
    (hinfo : w'.receiver.flowsInfo = w.receiver.flowsInfo)
    (hmax : w'.receiver.maxChannels = w.receiver.maxChannels)
    (hsub : ∀ t ∈ w'.worker.spawned, t ∈ w.worker.spawned)
    (hsinks : ∀ f c chi sink, Task.receiverConnect f c chi sink ∈ w'.worker.spawned ↔
      Task.receiverConnect f c chi sink ∈ w.worker.spawned)
    (hdoomed : ∀ f, w.Doomed f → w'.Doomed f) : w'.MapInv where
  refs := hrefs
  width := by rw [hmax, hlen, h.width]
  widths := by
    rw [hinfo, hlen]
    exact h.widths
  noClear f c chi ring hmem := h.noClear f c chi ring (hsub _ hmem)
  maps f info hnot hf c bits hbits chi := by
    rw [hinfo] at hf
    have hmaps := h.maps f info (fun hd => hnot (hdoomed f hd)) hf c bits hbits chi
    rw [WillBeSet, ConnectedTo] at hmaps ⊢
    simp only [hsinks, hremote]
    exact hmaps

theorem MapInv.of_same (h : w.MapInv) (hrefs : w'.RefInv)
    (hlen : w'.worker.channels.length = w.worker.channels.length)
    (hremote : ∀ chi, remoteOf w'.worker.channels chi = remoteOf w.worker.channels chi)
    (hinfo : w'.receiver.flowsInfo = w.receiver.flowsInfo)
    (hmax : w'.receiver.maxChannels = w.receiver.maxChannels)
    (hspawned : w'.worker.spawned = w.worker.spawned)
    (hdoomed : ∀ f, w.Doomed f → w'.Doomed f) : w'.MapInv :=
  h.of_tasks hrefs hlen hremote hinfo hmax (fun t ht => hspawned ▸ ht)
    (fun f c chi sink => by rw [hspawned]) hdoomed

/-- The worker does not begin or end destroying flows. -/
theorem Doomed.of_same {f : Nat} (h : w.Doomed f) (hspawned : w'.worker.spawned = w.worker.spawned)
    (hphase : ∀ ds, w.phase = .destroying ds → w'.phase = .destroying ds) : w'.Doomed f := by
  rcases h with h | ⟨ds, hds, hmem⟩
  · exact .inl (hspawned ▸ h)
  · exact .inr ⟨ds, hphase ds hds, hmem⟩

/-- A channel that is not connected is unsubscribed without a trace. -/
theorem unsubscribe_free {cfg : SubscriberConfig} {s s' : Subscriber} {ch : Nat}
    {removeFromInfo : Bool} (h : s.unsubscribe cfg ch removeFromInfo = some s')
    (hnone : remoteOf s.channels ch = none) :
    s'.channels.length = s.channels.length ∧
      (∀ chi, remoteOf s'.channels chi = remoteOf s.channels chi) ∧ s'.spawned = s.spawned := by
  obtain ⟨hch, ⟨_, rfl⟩ | ⟨sub, s₁, hsub, hleave, rfl⟩⟩ := Subscriber.unsubscribe_cases h
  · exact ⟨rfl, fun _ => rfl, rfl⟩
  · have hremote : sub.remote = none := by
      rw [remoteOf, hsub, Option.bind_some] at hnone
      exact hnone
    unfold Subscriber.leave at hleave
    rw [hremote] at hleave
    obtain rfl := Option.some.inj hleave
    exact ⟨List.length_set, fun chi => RefcountsExact.remoteOf_set_free hch hnone rfl chi, rfl⟩

theorem subscribe_free {cfg : SubscriberConfig} {s s' : Subscriber} {ch : Nat}
    {txChannelName txHostname : String} (h : s.subscribe cfg ch txChannelName txHostname = some s')
    (hnone : remoteOf s.channels ch = none) :
    s'.channels.length = s.channels.length ∧
      (∀ chi, remoteOf s'.channels chi = remoteOf s.channels chi) ∧ s'.spawned = s.spawned := by
  obtain ⟨hch, s₁, hfirst, rfl⟩ := Subscriber.subscribe_cases h
  obtain ⟨hlen, hremote, hspawned⟩ : s₁.channels.length = s.channels.length ∧
      (∀ chi, remoteOf s₁.channels chi = remoteOf s.channels chi) ∧ s₁.spawned = s.spawned := by
    rcases hfirst with ⟨_, rfl⟩ | hun
    · exact ⟨rfl, fun _ => rfl, rfl⟩
    · exact unsubscribe_free hun hnone
  refine ⟨List.length_set.trans hlen, fun chi => ?_, hspawned⟩
  dsimp only
  rw [RefcountsExact.remoteOf_set_free (hlen ▸ hch) ((hremote ch).trans hnone) rfl, hremote]

/-- A command for a channel that is not connected. -/
theorem MapInv.handle (h : w.MapInv) (hrefs : w'.RefInv) (hfits : w.MapFits .handle)
    (hrun : w.handle cfg = some w') : w'.MapInv := by
  obtain ⟨cmd, queue, next, hqueue, hnext, rfl⟩ := handle_cases hrun
  have hfree := hfits cmd (by rw [hqueue]; rfl)
  cases cmd with
  | shutdown =>
      obtain rfl := Option.some.inj hnext
      exact h.of_same hrefs rfl (fun _ => rfl) rfl rfl rfl fun _ hd => hd
  | forceRefresh =>
      obtain rfl := Option.some.inj hnext
      exact h.of_same hrefs rfl (fun _ => rfl) rfl rfl rfl fun _ hd => hd
  | subscribe ch txChannelName txHostname =>
      obtain ⟨worker, hsub, rfl⟩ := Option.map_eq_some_iff.mp hnext
      obtain ⟨hlen, hremote, hspawned⟩ := subscribe_free hsub (hfree ch rfl)
      exact h.of_same hrefs hlen hremote rfl rfl hspawned
        fun _ hd => hd.of_same hspawned fun _ hds => hds
  | unsubscribe ch =>
      obtain ⟨worker, hun, rfl⟩ := Option.map_eq_some_iff.mp hnext
      obtain ⟨hlen, hremote, hspawned⟩ := unsubscribe_free hun (hfree ch rfl)
      exact h.of_same hrefs hlen hremote rfl rfl hspawned
        fun _ hd => hd.of_same hspawned fun _ hds => hds

/-- What a future does to the table of the receiver: nothing, or it makes the
entry of its new flow. -/
theorem runJob_receiver {job : Job} {rest rest' : List Job} {outcome : JobOutcome}
    {batch : Option (List ChannelSourceUpdate)}
    (hrun : w.runJob cfg job rest outcome = some (w', rest', batch)) :
    w'.worker.spawned = w.worker.spawned ∧ (w'.receiver = w.receiver ∨
      ∃ f sendKeepalives bytesPerSample channelsCount latencySamples, job.newFlow = some f ∧
        w'.receiver = w.receiver.addSocket f sendKeepalives bytesPerSample channelsCount
          latencySamples) := by
  unfold RxWorld.runJob at hrun
  split at hrun
  · cases hrun
    exact ⟨rfl, .inl rfl⟩
  · cases hrun
    exact ⟨rfl, .inl rfl⟩
  · cases hrun
    exact ⟨rfl, .inr ⟨_, _, _, _, _, rfl, rfl⟩⟩
  · cases hrun
    exact ⟨rfl, .inl rfl⟩
  · split at hrun
    · cases hrun
      exact ⟨rfl, .inl rfl⟩
    · obtain ⟨worker, hfail, hrun⟩ := Option.bind_eq_some_iff.mp hrun
      cases hrun
      exact ⟨(txFail_all hfail).2.2, .inl rfl⟩
  · split at hrun
    · cases hrun
      exact ⟨rfl, .inl rfl⟩
    split at hrun
    · cases hrun
      exact ⟨rfl, .inl rfl⟩
    · obtain ⟨flow, _, hrun⟩ := Option.bind_eq_some_iff.mp hrun
      cases hrun
      exact ⟨rfl, .inr ⟨_, _, _, _, _, rfl, rfl⟩⟩
  · cases hrun

theorem MapInv.job (h : w.MapInv) (hrefs : w'.RefInv) {k : Nat} {outcome : JobOutcome}
    (hfits : w.MapFits (.job k outcome)) (hrun : w.job cfg k outcome = some w') : w'.MapInv := by
  obtain ⟨r, job, rest, w₁, rest', batch, hphase, hk, hjob, rfl⟩ := job_cases hrun
  obtain ⟨hchannels, _, _, _, _⟩ := runJob_flows hjob
  obtain ⟨hspawned, hreceiver⟩ := runJob_receiver hjob
  have hphase' : ∀ ds, w.phase ≠ .destroying ds := fun ds hds => by rw [hphase] at hds; cases hds
  rcases hreceiver with hsame | ⟨f, sendKeepalives, bytes, count, latency, hnew, hadd⟩
  · exact h.of_same hrefs (by rw [hchannels]) (fun chi => by rw [hchannels]) (by rw [hsame])
      (by rw [hsame]) hspawned fun f hd => hd.of_same hspawned fun ds hds => absurd hds (hphase' ds)
  -- the new entry is blank, and nobody is connected to the new flow
  simp only [MapFits, hphase, hk, Option.mem_some_iff, forall_eq', List.head?_cons] at hfits
  have hnosink := hfits f hnew
  have hunserved : ∀ chi rem, remoteOf w.worker.channels chi = some rem → rem.localFlowIndex ≠ f := by
    obtain ⟨others, hperm, _⟩ := executors_perm hk (.inl rfl : rest = rest ∨ rest = [])
    have hpromises := h.refs.promises
    rw [jobs, sent, hphase] at hpromises
    exact (hpromises.newFlow job (hperm.symm.subset List.mem_cons_self) f hnew).1
  have hmax : w₁.receiver.maxChannels = w.receiver.maxChannels := by
    rw [hadd, FlowsReceiver.addSocket]
    split <;> rfl
  have hentry : ∀ (i : Nat) info, w₁.receiver.flowsInfo[i]?.join = some info →
      (i = f ∧ info.channelsMap = List.replicate count (List.replicate w.receiver.maxChannels false)) ∨
        w.receiver.flowsInfo[i]?.join = some info := by
    intro i info hi
    rw [hadd] at hi
    exact (FlowsReceiver.addSocket_flowsInfo _ _ _ _ _ _ _ _ hi).imp_right And.left
  refine ⟨hrefs, ?_, fun i info hi bits hbits => ?_, ?_, fun i info hnot hi c bits hbits chi => ?_⟩
  · show w₁.receiver.maxChannels = w₁.worker.channels.length
    rw [hmax, hchannels]
    exact h.width
  · show bits.length = w₁.worker.channels.length
    rw [hchannels]
    rcases hentry i info hi with ⟨_, hmap⟩ | hold
    · rw [hmap] at hbits
      rw [List.eq_of_mem_replicate hbits, List.length_replicate, h.width]
    · exact h.widths i info hold bits hbits
  · show ∀ f c chi ring, Task.receiverDisconnect f c chi ring ∉ w₁.worker.spawned
    rw [hspawned]
    exact h.noClear
  · rcases hentry i info hi with ⟨rfl, hmap⟩ | hold
    · rw [hmap] at hbits
      have hblank := List.eq_of_mem_replicate (List.mem_of_getElem? hbits)
      constructor
      · rintro (hbit | ⟨sink, hsink⟩)
        · rw [hblank, List.getElem?_replicate] at hbit
          split at hbit <;> cases hbit
        · change _ ∈ w₁.worker.spawned at hsink
          rw [hspawned] at hsink
          have hfalse := hnosink _ hsink
          simp [sinkFor] at hfalse
      · rintro ⟨rem, hrem, hindex, _⟩
        change remoteOf w₁.worker.channels chi = some rem at hrem
        rw [hchannels] at hrem
        exact absurd hindex (hunserved chi rem hrem)
    · have hnot' : ¬ w.Doomed i := fun hd =>
        hnot (hd.of_same hspawned fun ds hds => absurd hds (hphase' ds))
      have hmaps := h.maps i info hnot' hold c bits hbits chi
      rw [WillBeSet, ConnectedTo] at hmaps ⊢
      dsimp only
      rw [hspawned, hchannels]
      exact hmaps

/-- One channel is connected, to a slot that has no ring: its sink is on its
way. -/
theorem MapInv.apply (h : w.MapInv) (howned : cfg.buffering = .owned) (hrefs : w'.RefInv)
    (hfits : w.MapFits .apply) (hrun : w.apply cfg = some w') : w'.MapInv := by
  obtain ⟨r, upd, rest, worker, hphase, happlying, happly, rfl⟩ := apply_cases hrun
  simp only [MapFits, hphase, happlying, List.head?_cons, Option.mem_some_iff, forall_eq'] at hfits
  obtain ⟨hone, hring⟩ := hfits
  obtain ⟨chi, hchi⟩ := List.length_eq_one_iff.mp hone
  have hdoomed : ∀ {v : RxWorld} f, (∀ t, t ∈ w.worker.spawned → t ∈ v.worker.spawned) →
      w.Doomed f → v.Doomed f := by
    rintro v f hsub (hmem | ⟨ds, hds, _⟩)
    · exact .inl (hsub _ hmem)
    · rw [hphase] at hds
      cases hds
  have hunserved : remoteOf w.worker.channels chi = none := by
    have hpromises := h.refs.promises
    rw [jobs, sent, hphase] at hpromises
    refine hpromises.unserved upd (List.mem_append_right _ (List.mem_append_right _ ?_)) chi ?_
    · rw [happlying]
      exact List.mem_cons_self
    · rw [hchi]
      exact List.mem_singleton_self chi
  have hfold := Subscriber.applyUpdate_cases happly
  rw [hchi, List.foldlM_cons] at hfold
  obtain ⟨worker₁, hconnect, hfold⟩ := Option.bind_eq_some_iff.mp hfold
  obtain rfl := Option.some.inj hfold
  obtain ⟨sub, flow, hsub, hflow, ⟨_, rfl⟩ | ⟨hlt, rc, rbOutput, _, hrb, rfl⟩⟩ :=
    Subscriber.connect_cases hconnect
  · exact h.of_same hrefs rfl (fun _ => rfl) rfl rfl rfl fun f hd => hdoomed f (fun _ ht => ht) hd
  have hnone : rbOutput = none := by
    rw [noRing, flowAt, hflow, Option.all_some, hrb] at hring
    exact Option.isNone_iff_eq_none.mp hring
  have htasks : w.worker.connectTasks cfg.toSubscriberConfig r.now upd.remote flow chi rbOutput =
      [.collectorConnect chi (.owned w.worker.nextRing r.now) flow.latencySamples,
        .receiverConnect upd.remote.localFlowIndex upd.remote.channelInFlow chi
          (.owned w.worker.nextRing r.now)] := by
    rw [Subscriber.connectTasks, howned, hnone]
    rfl
  have hremote : ∀ i, remoteOf (w.worker.channels.set chi (some { sub with
      remote := some upd.remote })) i = if i = chi then some upd.remote
        else remoteOf w.worker.channels i := fun i => RefcountsExact.remoteOf_set (join_lt hsub) _ i
  refine ⟨hrefs, ?_, fun f info hf => ?_, fun f c i ring hmem => ?_, fun f info hnot hf c bits hbits i => ?_⟩
  · dsimp only
    rw [List.length_set]
    exact h.width
  · dsimp only
    rw [List.length_set]
    exact h.widths f info hf
  · dsimp only at hmem
    rw [htasks] at hmem
    rcases List.mem_append.mp hmem with hmem | hmem
    · exact h.noClear f c i ring hmem
    · simp at hmem
  · have hmaps := h.maps f info (fun hd => hnot (hdoomed f (fun t ht => List.mem_append_left _ ht) hd))
      hf c bits hbits i
    have hwill : ∀ sink, Task.receiverConnect f c i sink ∈ w.worker.spawned ++
        w.worker.connectTasks cfg.toSubscriberConfig r.now upd.remote flow chi rbOutput ↔
          Task.receiverConnect f c i sink ∈ w.worker.spawned ∨
            (i = chi ∧ upd.remote.localFlowIndex = f ∧ upd.remote.channelInFlow = c ∧
              sink = .owned w.worker.nextRing r.now) := by
      intro sink
      rw [htasks, List.mem_append]
      refine or_congr_right ?_
      simp only [List.mem_cons, List.not_mem_nil, reduceCtorEq, false_or, or_false,
        Task.receiverConnect.injEq]
      constructor
      · rintro ⟨rfl, rfl, rfl, rfl⟩
        exact ⟨rfl, rfl, rfl, rfl⟩
      · rintro ⟨rfl, rfl, rfl, rfl⟩
        exact ⟨rfl, rfl, rfl, rfl⟩
    constructor
    · rintro (hbit | ⟨sink, hsink⟩)
      · obtain ⟨rem, hrem, hat⟩ := hmaps.mp (.inl hbit)
        refine ⟨rem, ?_, hat⟩
        dsimp only
        rw [hremote, if_neg, hrem]
        rintro rfl
        rw [hunserved] at hrem
        cases hrem
      rcases (hwill sink).mp hsink with hsink | ⟨rfl, hindex, hslot, _⟩
      · obtain ⟨rem, hrem, hat⟩ := hmaps.mp (.inr ⟨sink, hsink⟩)
        refine ⟨rem, ?_, hat⟩
        dsimp only
        rw [hremote, if_neg, hrem]
        rintro rfl
        rw [hunserved] at hrem
        cases hrem
      · refine ⟨upd.remote, ?_, hindex, hslot⟩
        dsimp only
        rw [hremote, if_pos rfl]
    · rintro ⟨rem, hrem, hindex, hslot⟩
      dsimp only at hrem
      rw [hremote] at hrem
      split at hrem
      · next heq =>
          obtain rfl := Option.some.inj hrem
          exact .inr ⟨_, (hwill _).mpr (.inr ⟨heq, hindex, hslot, rfl⟩)⟩
      · rcases hmaps.mpr ⟨rem, hrem, hindex, hslot⟩ with hbit | ⟨sink, hsink⟩
        · exact .inl hbit
        · exact .inr ⟨sink, (hwill sink).mpr (.inl hsink)⟩

/-- The flows that the scan gives up are doomed, the others keep their
channels. -/
theorem MapInv.scan (h : w.MapInv) (howned : cfg.buffering = .owned) (hrefs : w'.RefInv)
    (hidle : w.phase = .idle) {env : Subscriber.ScanEnv} (hrun : w.scan cfg env = some w') :
    w'.MapInv := by
  obtain ⟨⟨worker, destroy⟩, hscan, hrun⟩ := Option.bind_eq_some_iff.mp hrun
  obtain rfl := Option.some.inj hrun
  obtain ⟨_, removed, ⟨extra, hspawned, hextra, hremoved⟩, hperm⟩ :=
    Subscriber.scanFlows_spawns hscan
  obtain ⟨hlen, hremote⟩ := RefcountsExact.scanFlows_remote hscan
  have hnoconnect : ∀ f c chi sink, Task.receiverConnect f c chi sink ∉ extra := by
    intro f c chi sink hmem
    rcases hextra _ hmem with hdis | ⟨i, hi⟩
    · rcases hdis.cases with ⟨_, i, hi⟩ | ⟨_, _, _, _, hi⟩ <;> cases hi
    · cases hi
  refine ⟨hrefs, ?_, fun f info hf => ?_, fun f c chi ring hmem => ?_,
    fun f info hnot hf c bits hbits chi => ?_⟩
  · show w.receiver.maxChannels = worker.channels.length
    rw [hlen]
    exact h.width
  · show ∀ bits ∈ info.channelsMap, bits.length = worker.channels.length
    rw [hlen]
    exact h.widths f info hf
  · change _ ∈ worker.spawned at hmem
    rw [hspawned] at hmem
    rcases List.mem_append.mp hmem with hmem | hmem
    · exact h.noClear f c chi ring hmem
    · rcases hextra _ hmem with hdis | ⟨i, hi⟩
      · rcases hdis.cases with ⟨_, i, hi⟩ | ⟨hexternal, _⟩
        · cases hi
        · rw [howned] at hexternal
          cases hexternal
      · cases hi
  · -- the flow at this index stays
    have hstays : f ∉ Subscriber.removedFrom env 0 w.worker.flows := by
      intro hmem
      refine hnot ?_
      rcases List.mem_append.mp (hperm.symm.subset hmem) with hmem | hmem
      · refine .inr ⟨destroy, ?_, hmem⟩
        cases destroy with
        | nil => cases hmem
        | cons d destroy => rfl
      · rw [← hremoved] at hmem
        obtain ⟨t, ht, hf'⟩ := List.mem_filterMap.mp hmem
        refine .inl ?_
        show _ ∈ worker.spawned
        rw [hspawned]
        cases t <;> cases hf'
        exact List.mem_append_right _ ht
    have hnot' : ¬ w.Doomed f := by
      rintro (hmem | ⟨ds, hds, _⟩)
      · refine hnot (.inl ?_)
        show _ ∈ worker.spawned
        rw [hspawned]
        exact List.mem_append_left _ hmem
      · rw [hidle] at hds
        cases hds
    have hmaps := h.maps f info hnot' hf c bits hbits chi
    have hconnected : ConnectedTo w f c chi ↔ ∃ r, remoteOf worker.channels chi = some r ∧
        r.localFlowIndex = f ∧ r.channelInFlow = c := by
      constructor
      · rintro ⟨r, hr, hindex, hslot⟩
        refine ⟨r, ?_, hindex, hslot⟩
        rw [hremote, hr, Option.filter_some, if_pos]
        have hlost : RefcountsExact.lost env w.worker.flows r = false := by
          rw [RefcountsExact.lost, flowAt, hindex]
          cases hflow : w.worker.flows[f]?.join with
          | none => rfl
          | some flow =>
              rw [Option.any_some]
              refine Bool.eq_false_iff.mpr fun hout => hstays ?_
              refine (Subscriber.mem_removedFrom List.drop_zero).mpr ⟨Nat.zero_le f, flow, hflow, ?_⟩
              rw [Subscriber.isRemoved, hout, Bool.true_or]
        rw [hlost]
        rfl
      · rintro ⟨r, hr, hat⟩
        rw [hremote] at hr
        exact ⟨r, (Option.filter_eq_some_iff.mp hr).1, hat⟩
    have hwill : ∀ sink, Task.receiverConnect f c chi sink ∈ worker.spawned ↔
        Task.receiverConnect f c chi sink ∈ w.worker.spawned := by
      intro sink
      rw [hspawned, List.mem_append]
      exact or_iff_left (hnoconnect f c chi sink)
    rw [hconnected, WillBeSet] at hmaps
    rw [WillBeSet, ConnectedTo]
    simp only [hwill]
    exact hmaps

/-! ## Sockets go and tasks run -/

/-- The entry of one flow goes. -/
theorem MapInv.removeSocket (h : w.MapInv) (hrefs : w'.RefInv) {f : Nat}
    (hworker : w'.worker.channels = w.worker.channels)
    (hspawned : ∀ t, t.removal? = none → (t ∈ w'.worker.spawned ↔ t ∈ w.worker.spawned))
    (hreceiver : w'.receiver = w.receiver.removeSocket f)
    (hdoomed : ∀ i, i ≠ f → w.Doomed i → w'.Doomed i) : w'.MapInv := by
  have hentry : ∀ (i : Nat) info, w'.receiver.flowsInfo[i]?.join = some info →
      i ≠ f ∧ w.receiver.flowsInfo[i]?.join = some info := by
    intro i info hi
    rw [hreceiver, FlowsReceiver.removeSocket_flowsInfo] at hi
    split at hi
    · cases hi
    · next hne => exact ⟨hne, hi⟩
  refine ⟨hrefs, ?_, fun i info hi => ?_, fun i c chi ring hmem => ?_,
    fun i info hnot hi c bits hbits chi => ?_⟩
  · have hmax : w'.receiver.maxChannels = w.receiver.maxChannels := by
      rw [hreceiver, FlowsReceiver.removeSocket]
      split <;> rfl
    rw [hmax, hworker, h.width]
  · rw [hworker]
    exact h.widths i info (hentry i info hi).2
  · exact h.noClear i c chi ring ((hspawned (.receiverDisconnect i c chi ring) rfl).mp hmem)
  · obtain ⟨hne, hold⟩ := hentry i info hi
    have hmaps := h.maps i info (fun hd => hnot (hdoomed i hne hd)) hold c bits hbits chi
    have hwill : ∀ sink, Task.receiverConnect i c chi sink ∈ w'.worker.spawned ↔
        Task.receiverConnect i c chi sink ∈ w.worker.spawned := fun sink =>
      hspawned (.receiverConnect i c chi sink) rfl
    rw [WillBeSet, ConnectedTo] at hmaps ⊢
    simp only [hwill]
    rw [hworker]
    exact hmaps

theorem MapInv.destroy (h : w.MapInv) (hrefs : w'.RefInv) {i : Nat}
    (hrun : w.destroy i = some w') : w'.MapInv := by
  obtain ⟨ds, d, hphase, hd, rfl⟩ := destroy_cases hrun
  refine h.removeSocket hrefs rfl (fun _ _ => Iff.rfl) rfl fun f hne hdoomed => ?_
  rcases hdoomed with hmem | ⟨ds', hds', hmem⟩
  · exact .inl hmem
  · rw [hphase] at hds'
    cases hds'
    obtain ⟨d', hd', rfl⟩ := List.mem_map.mp hmem
    obtain ⟨hlt, hget⟩ := List.getElem?_eq_some_iff.mp hd
    have hrest : d' ∈ ds.eraseIdx i := by
      rcases List.mem_cons.mp ((List.getElem_cons_eraseIdx_perm hlt).symm.subset hd') with heq | hrest
      · rw [hget] at heq
        exact absurd (congrArg Subscriber.DestroyFlow.flowIndex heq) hne
      · exact hrest
    refine .inr ⟨ds.eraseIdx i, ?_, List.mem_map_of_mem hrest⟩
    dsimp only
    rw [if_neg]
    simpa using List.ne_nil_of_mem hrest

/-- A task has run: it is not spawned any more, the others are. -/
theorem mem_spawned_eraseIdx {l : List Task} {i : Nat} {t : Task} (hi : l[i]? = some t) (t' : Task)
    (hne : t' ≠ t) : t' ∈ l.eraseIdx i ↔ t' ∈ l := by
  obtain ⟨hlt, hget⟩ := List.getElem?_eq_some_iff.mp hi
  have hperm := List.getElem_cons_eraseIdx_perm hlt
  rw [← hperm.mem_iff, hget, List.mem_cons]
  exact ⟨.inr, fun h => h.resolve_left hne⟩

theorem MapInv.task (h : w.MapInv) (hrefs : w'.RefInv) {i' : Nat} (hrun : w.task i' = some w') :
    w'.MapInv := by
  obtain ⟨t, ht, rfl⟩ := task_cases hrun
  have hmem := List.mem_of_getElem? ht
  have hothers := mem_spawned_eraseIdx ht
  have hsub : ∀ t' ∈ w.worker.spawned.eraseIdx i', t' ∈ w.worker.spawned :=
    fun t' ht' => List.mem_of_mem_eraseIdx ht'
  have hdoomed : ∀ f, t ≠ .removeSocket f → w.Doomed f → Doomed { w with
      worker := { w.worker with spawned := w.worker.spawned.eraseIdx i' }
      receiver := runTask w.receiver t } f := by
    rintro f hne (hd | hd)
    · exact .inl ((hothers _ hne.symm).mpr hd)
    · exact .inr hd
  cases t with
  | collectorConnect chi source latency =>
      exact h.of_tasks hrefs rfl (fun _ => rfl) rfl rfl hsub
        (fun f c chi sink => hothers _ (fun heq => (by cases heq))) fun f => hdoomed f fun heq => (by cases heq)
  | collectorDisconnect chi =>
      exact h.of_tasks hrefs rfl (fun _ => rfl) rfl rfl hsub
        (fun f c chi sink => hothers _ (fun heq => (by cases heq))) fun f => hdoomed f fun heq => (by cases heq)
  | receiverDisconnect f c chi ring => exact absurd hmem (h.noClear f c chi ring)
  | removeSocket f =>
      refine h.removeSocket hrefs rfl (fun t hnone => hothers t ?_) rfl fun i hne => hdoomed i ?_
      · rintro rfl
        cases hnone
      · intro heq
        cases heq
        exact hne rfl
  | receiverConnect f c chi sink =>
      have hinfo := w.receiver.connectChannel_flowsInfo f c chi sink
      have hdoomed' := fun i => hdoomed i fun heq => (by cases heq)
      -- an entry and its bits, before the sink is connected
      have hentry : ∀ (i : Nat) info, (w.receiver.connectChannel f c chi sink).flowsInfo[i]?.join =
          some info → ∃ old, w.receiver.flowsInfo[i]?.join = some old ∧
            ∀ (c' : Nat) bits, info.channelsMap[c']? = some bits → ∃ oldBits,
              old.channelsMap[c']? = some oldBits ∧
                bits = if i = f ∧ c' = c then oldBits.set chi true else oldBits := by
        intro i info hi
        rw [hinfo] at hi
        split at hi
        · next heq =>
            obtain ⟨old, hold, rfl⟩ := Option.map_eq_some_iff.mp hi
            refine ⟨old, hold, fun c' bits hbits => ?_⟩
            rw [List.getElem?_modify] at hbits
            obtain ⟨oldBits, holdBits, rfl⟩ := Option.map_eq_some_iff.mp hbits
            refine ⟨oldBits, holdBits, ?_⟩
            by_cases hc : c = c'
            · rw [if_pos hc, if_pos ⟨heq, hc.symm⟩]
            · rw [if_neg hc, if_neg fun hcon => hc hcon.2.symm]
        · next hne =>
            exact ⟨info, hi, fun c' bits hbits => ⟨bits, hbits, (if_neg fun hcon => hne hcon.1).symm⟩⟩
      refine ⟨hrefs, ?_, fun i info hi bits hbits => ?_,
        fun i c' chi' ring hmem' => h.noClear i c' chi' ring (hsub _ hmem'),
        fun i info hnot hi c' bits hbits chi' => ?_⟩
      · have hmax : (w.receiver.connectChannel f c chi sink).maxChannels = w.receiver.maxChannels := by
          unfold FlowsReceiver.connectChannel
          rcases w.receiver.mapChannel_cases f c chi true with ⟨hmap, _⟩ | ⟨_, _, _, hmap⟩ <;> rw [hmap]
        exact hmax.trans h.width
      · obtain ⟨old, hold, hall⟩ := hentry i info hi
        obtain ⟨c', hc'⟩ := List.mem_iff_getElem?.mp hbits
        obtain ⟨oldBits, holdBits, rfl⟩ := hall c' bits hc'
        have hwidth := h.widths i old hold oldBits (List.mem_of_getElem? holdBits)
        split
        · rw [List.length_set]
          exact hwidth
        · exact hwidth
      · obtain ⟨old, hold, hall⟩ := hentry i info hi
        obtain ⟨oldBits, holdBits, rfl⟩ := hall c' bits hbits
        have hnot' : ¬ w.Doomed i := fun hd => hnot (hdoomed' i hd)
        have hwidth := h.widths i old hold oldBits (List.mem_of_getElem? holdBits)
        have hmaps := h.maps i old hnot' hold c' oldBits holdBits chi'
        by_cases hat : i = f ∧ c' = c ∧ chi' = chi
        · -- the bit that is set
          obtain ⟨rfl, rfl, rfl⟩ := hat
          have hconnected := hmaps.mp (.inr ⟨sink, hmem⟩)
          refine ⟨fun _ => hconnected, fun _ => .inl ?_⟩
          obtain ⟨rem, hrem, _⟩ := hconnected
          have hlt : chi' < oldBits.length := hwidth ▸ RefcountsExact.remoteOf_lt hrem
          rw [if_pos ⟨rfl, rfl⟩, List.getElem?_set_self hlt]
        · have hbit : (if i = f ∧ c' = c then oldBits.set chi true else oldBits)[chi']? =
              oldBits[chi']? := by
            split
            · next heq =>
                refine List.getElem?_set_ne ?_
                rintro rfl
                exact hat ⟨heq.1, heq.2, rfl⟩
            · rfl
          have hwill : ∀ sink', Task.receiverConnect i c' chi' sink' ∈ w.worker.spawned.eraseIdx i' ↔
              Task.receiverConnect i c' chi' sink' ∈ w.worker.spawned := by
            intro sink'
            refine hothers _ fun heq => ?_
            cases heq
            exact hat ⟨rfl, rfl, rfl⟩
          rw [WillBeSet, ConnectedTo] at hmaps ⊢
          dsimp only
          simp only [hbit, hwill]
          exact hmaps

/-! ## Every run -/

theorem MapInv.step (h : w.MapInv) (howned : cfg.buffering = .owned) {e : RxEvent}
    (hfits : w.MapFits e) (hrun : w.step cfg e = some w') : w'.MapInv := by
  have hrefs := (h.refs.step hrun).1
  cases step_case hrun with
  | quiet hquiet =>
      refine h.of_same hrefs (by rw [hquiet.channels]) (fun chi => by rw [hquiet.channels])
        (by rw [hquiet.receiver]) (by rw [hquiet.receiver]) hquiet.spawned fun f hd => ?_
      exact hd.of_same hquiet.spawned fun ds => (hquiet.destroying ds).mpr
  | handle _ hrun => exact h.handle hrefs hfits hrun
  | resolve hidle hrun =>
      unfold RxWorld.resolve at hrun
      obtain ⟨p, _, hrun⟩ := Option.bind_eq_some_iff.mp hrun
      obtain rfl := Option.some.inj hrun
      refine h.of_same hrefs rfl (fun _ => rfl) rfl rfl rfl fun f hd => hd.of_same rfl ?_
      intro ds hds
      rw [hidle] at hds
      cases hds
  | job hrun => exact h.job hrefs hfits hrun
  | apply hrun => exact h.apply howned hrefs hfits hrun
  | scan hidle hrun => exact h.scan howned hrefs hidle hrun
  | destroy hrun => exact h.destroy hrefs hrun
  | task hrun => exact h.task hrefs hrun
  | receiver hreceiver =>
      unfold FlowsReceiver.takeCommand at hreceiver
      split at hreceiver
      · cases hreceiver
      · obtain ⟨hinfo, hmax⟩ := FlowsReceiver.handle_flowsInfo hreceiver
        exact h.of_same hrefs rfl (fun _ => rfl) hinfo hmax rfl fun f hd =>
          hd.of_same rfl fun _ hds => hds

theorem loadState_quiet {cfg : SubscriberConfig} {saved : List Subscriber.SavedChannelState}
    {s s' : Subscriber} (hnone : ∀ chi, remoteOf s.channels chi = none)
    (hrun : s.loadState cfg saved = some s') :
    s'.channels.length = s.channels.length ∧ s'.spawned = s.spawned := by
  induction saved generalizing s with
  | nil =>
      obtain rfl := Option.some.inj hrun
      exact ⟨rfl, rfl⟩
  | cons chst saved ih =>
      rw [Subscriber.loadState] at hrun
      dsimp only at hrun
      split at hrun
      · exact ih hnone hrun
      obtain ⟨s₁, hsub, hrun⟩ := Option.bind_eq_some_iff.mp hrun
      obtain ⟨hlen, hremote, hspawned⟩ := subscribe_free hsub (hnone _)
      obtain ⟨hlen', hspawned'⟩ := ih (fun chi => (hremote chi).trans (hnone chi)) hrun
      exact ⟨hlen'.trans hlen, hspawned'.trans hspawned⟩

theorem mapInv_start {cfg : SubscriberConfig} {n : Nat}
    {saved : List Subscriber.SavedChannelState} {worker : Subscriber}
    (hload : (Subscriber.new n).loadState cfg saved = some worker) (startTimestamp : Option Clock) :
    (start worker (.start n startTimestamp)).MapInv := by
  have hnone : ∀ chi, remoteOf (Subscriber.new n).channels chi = none := by
    intro chi
    rw [remoteOf, Subscriber.new, List.getElem?_replicate]
    split <;> rfl
  obtain ⟨hlen, hspawned⟩ := loadState_quiet hnone hload
  have hempty : ∀ (f : Nat) info,
      (FlowsReceiver.start n startTimestamp).flowsInfo[f]?.join ≠ some info := by
    intro f info hf
    rw [FlowsReceiver.start, List.getElem?_replicate] at hf
    split at hf <;> cases hf
  refine ⟨refInv_start hload _, ?_, fun f info hf => absurd hf (hempty f info),
    fun f c chi ring hmem => ?_, fun f info _ hf => absurd hf (hempty f info)⟩
  · show n = worker.channels.length
    rw [hlen, Subscriber.new, List.length_replicate]
  · change _ ∈ worker.spawned at hmem
    rw [hspawned] at hmem
    cases hmem

end RxWorld

open RxWorld in
/-- The bits are true whenever nothing is under way, in every run whose events
meet the condition. -/
theorem maps_true (cfg : RxConfig) (howned : cfg.buffering = .owned) (n : Nat)
    (saved : List Subscriber.SavedChannelState) (worker : Subscriber)
    (hload : (Subscriber.new n).loadState cfg.toSubscriberConfig saved = some worker)
    (startTimestamp : Option Clock) (w : RxWorld)
    (h : Reaches cfg MapFits (start worker (.start n startTimestamp)) w)
    (hquiet : w.isQuiet = true) : w.MapsTrue := by
  suffices hinv : w.MapInv from hinv.mapsTrue hquiet
  clear hquiet
  induction h with
  | refl => exact mapInv_start hload startTimestamp
  | tail _ hstep ih =>
      obtain ⟨e, hfits, hrun⟩ := hstep
      exact ih.step howned hfits hrun

/-- One channel subscribed to `a` at host `h`, connected, with all tasks run. -/
def connectOne : List RxEvent :=
  [.resolve sampleAnswers, .job 0 (.ok [1, 2, 3, 4, 5, 6]), .receive 1 (some 0), .apply,
    .receive 0 (some 0), .finish, .task 1, .task 0]

/-- The bits of the first flow. -/
def firstMap (w : RxWorld) : Option (List (List Bool)) :=
  w.receiver.flowsInfo[0]?.join.map RxFlowInfo.channelsMap

open RxWorld in
/-- The bit of the channel that is connected is set. -/
theorem maps_true_connected :
    ∃ worker w, (Subscriber.new 1).loadState sampleRxConfig.toSubscriberConfig oneSaved = some worker ∧
      runWith sampleRxConfig MapFits (start worker (.start 1 none)) connectOne = some w ∧
      w.ConnectedTo 0 0 0 := by
  obtain ⟨worker, hload⟩ := Option.isSome_iff_exists.mp (show ((Subscriber.new 1).loadState
    sampleRxConfig.toSubscriberConfig oneSaved).isSome by decide)
  have hruns : (((Subscriber.new 1).loadState sampleRxConfig.toSubscriberConfig oneSaved).bind
      fun worker => (runWith sampleRxConfig MapFits (start worker (.start 1 none))
        connectOne).map fun w => (w.isQuiet, firstMap w)) = some (true, some [[true]]) := by
    decide
  rw [hload, Option.bind_some] at hruns
  obtain ⟨w, hw, hend⟩ := Option.map_eq_some_iff.mp hruns
  obtain ⟨hquiet, hmap⟩ := Prod.mk.inj hend
  obtain ⟨info, hinfo, hbits⟩ := Option.map_eq_some_iff.mp hmap
  have htrue := maps_true sampleRxConfig rfl 1 oneSaved worker hload none w (reaches_of_runWith hw)
    hquiet
  exact ⟨worker, w, hload, hw, (htrue 0 info hinfo 0 [true] (by rw [hbits]; rfl) 0).mp rfl⟩

/-- Two channels with one source: the second is an alias of the first. -/
def connectAliases : List RxEvent :=
  [.resolve sampleAnswers, .job 0 (.ok [1, 2, 3, 4, 5, 6]), .receive 1 (some 0), .apply,
    .receive 0 (some 0), .finish, .task 0, .task 0, .task 0]

open RxWorld in
/-- The alias is connected to the slot but has no bit. -/
theorem alias_has_no_bit :
    ¬ ∀ worker, (Subscriber.new 2).loadState sampleRxConfig.toSubscriberConfig twoSaved =
        some worker → ∀ w, Reaches sampleRxConfig (fun _ _ => True)
          (start worker (.start 2 none)) w → w.isQuiet = true → w.MapsTrue := by
  intro h
  obtain ⟨worker, hload⟩ := Option.isSome_iff_exists.mp (show ((Subscriber.new 2).loadState
    sampleRxConfig.toSubscriberConfig twoSaved).isSome by decide)
  have hruns : (((Subscriber.new 2).loadState sampleRxConfig.toSubscriberConfig twoSaved).bind
      fun worker => (runWith sampleRxConfig (fun _ _ => True) (start worker (.start 2 none))
        connectAliases).map fun w => (w.isQuiet, firstMap w, remoteOf w.worker.channels 1)) =
      some (true, some [[true, false], [false, false]], some ⟨0, 0, 1⟩) := by decide
  rw [hload, Option.bind_some] at hruns
  obtain ⟨w, hw, hend⟩ := Option.map_eq_some_iff.mp hruns
  simp only [Prod.mk.injEq] at hend
  obtain ⟨hquiet, hmap, hremote⟩ := hend
  obtain ⟨info, hinfo, hbits⟩ := Option.map_eq_some_iff.mp hmap
  have htrue := h worker hload w (reaches_of_runWith hw) hquiet
  have hbit := (htrue 0 info hinfo 0 [true, false] (by rw [hbits]; rfl) 1).mpr
    ⟨_, hremote, rfl, rfl⟩
  cases hbit

end Inferno
