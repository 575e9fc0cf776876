import Inferno.AudioSinks
import Inferno.AudioTurns

/-!
# The last command wins

Where a channel's audio is going to come from is where the channel is
connected: the collector's slot once its commands are taken and its tasks have
run (`OwnedInv`), the ring among the sinks once the receiver's commands are
taken and the tasks have run in order (`ExternalInv`). In runs whose events
meet `OrderFits` this holds throughout, so when everything has run the audio is
right (`last_command_wins`); in other orders it need not be
(`disconnect_overtakes_connect`).
-/

namespace Inferno

open Detached Partial

/-! ## The collector -/

/-- What a command makes of the collector's slot of a channel. -/
def CollectorCommand.slotAfter (chi : Nat) (v : Option Nat) : CollectorCommand → Option Nat
  | .connectChannel channelIndex source _ => if channelIndex = chi then some source else v
  | .disconnectChannel channelIndex => if channelIndex = chi then none else v
  | .shutdown => v
  | .noOp => v

theorem Collector.slot_set {c : Collector} {i : Nat} (hi : i < c.channels.length)
    (o : Option CollectorChannel) (chi : Nat) :
    Collector.slot { c with channels := c.channels.set i o } chi =
      if chi = i then o.map CollectorChannel.source else c.slot chi := by
  rw [Collector.slot]
  dsimp only
  rw [join_set hi]
  by_cases hchi : chi = i
  · rw [if_pos hchi, if_pos hchi]
  · rw [if_neg hchi, if_neg hchi, Collector.slot]

theorem Collector.handleCommand_slot {c c' : Collector} {cmd : CollectorCommand} {b : Bool}
    (h : c.handleCommand cmd = some (c', b)) :
    (∀ chi, c'.slot chi = cmd.slotAfter chi (c.slot chi)) ∧
      c'.channels.length = c.channels.length ∧ c'.buffers = c.buffers := by
  cases cmd with
  | noOp =>
      cases h
      exact ⟨fun _ => rfl, rfl, rfl⟩
  | shutdown =>
      cases h
      exact ⟨fun _ => rfl, rfl, rfl⟩
  | connectChannel i source latency =>
      rw [Collector.handleCommand] at h
      split at h
      · next hi =>
          cases h
          refine ⟨fun chi => (Collector.slot_set hi _ chi).trans ?_, List.length_set, rfl⟩
          simp only [CollectorCommand.slotAfter, Option.map_some, eq_comm]
      · cases h
  | disconnectChannel i =>
      rw [Collector.handleCommand] at h
      split at h
      · next hi =>
          cases h
          refine ⟨fun chi => (Collector.slot_set hi _ chi).trans ?_, List.length_set, rfl⟩
          simp only [CollectorCommand.slotAfter, Option.map_none, eq_comm]
      · cases h

theorem Collector.slot_sources (c : Collector) (chi : Nat) :
    c.slot chi = (sources c.channels)[chi]?.join := by
  rw [Collector.slot, sources, List.getElem?_map]
  rcases c.channels[chi]? with _ | _ | _ <;> rfl

/-- A tick reads from the same rings as before. -/
theorem Collector.tick_slot {rings : Nat → CollectorRing} {c c' : Collector}
    {out : Option Delivery} (hlen : c.channels.length = c.buffers.length)
    (h : c.tick rings = some (c', out)) :
    (∀ chi, c'.slot chi = c.slot chi) ∧ c'.channels.length = c'.buffers.length := by
  cases hends : getMinMaxEndTimestamps (endTimestamps rings c.channels) with
  | none =>
      simp only [Collector.tick, hends] at h
      cases h
      exact ⟨fun _ => rfl, hlen⟩
  | some ends =>
      obtain ⟨minEnd, maxEnd⟩ := ends
      cases hclock : c.clock with
      | none =>
          simp only [Collector.tick, hends, hclock] at h
          cases h
          exact ⟨fun _ => rfl, hlen⟩
      | some start =>
          obtain ⟨c₁, out₁, htick, _, _, hsources, hlen'⟩ := tick_succeeds hlen hends hclock
          rw [htick] at h
          cases h
          refine ⟨fun chi => ?_, hlen'⟩
          rw [Collector.slot_sources, Collector.slot_sources, hsources]

namespace AudioWorld

/-- The collector's slot when its commands are taken. -/
def slotToCome (a : AudioWorld) (chi : Nat) : Option Nat :=
  Outbox.drained (CollectorCommand.slotAfter chi) (a.collector.slot chi) a.commands

/-- A task's command does to the slot what the task is for. -/
theorem slotToCome_sent (v : Option Nat) (commands : List CollectorCommand) (t : Task) (chi : Nat) :
    Outbox.drained (CollectorCommand.slotAfter chi) v (commands ++ t.collectorCommand.toList) =
      (t.slotEffect chi).getD (Outbox.drained (CollectorCommand.slotAfter chi) v commands) := by
  cases t with
  | collectorConnect i source latency =>
      refine (Outbox.drained_snoc _ v commands _).trans ?_
      rw [CollectorCommand.slotAfter, Task.slotEffect]
      split <;> rfl
  | collectorDisconnect i =>
      refine (Outbox.drained_snoc _ v commands _).trans ?_
      rw [CollectorCommand.slotAfter, Task.slotEffect]
      split <;> rfl
  | receiverConnect => exact congrArg _ (List.append_nil commands)
  | receiverDisconnect => exact congrArg _ (List.append_nil commands)
  | removeSocket => exact congrArg _ (List.append_nil commands)

/-- With buffers of its own: each slot is going to be the source. -/
structure OwnedInv (a : AudioWorld) : Prop where
  rings : HasRings a.rx.worker
  sized : a.collector.channels.length = a.collector.buffers.length
  leads : ∀ chi, lastValue (Task.slotEffect chi) (a.slotToCome chi) a.rx.worker.spawned =
    (a.rx.worker.source chi).map RingId.number

variable {cfg : RxConfig} {a a' : AudioWorld} {w w' : RxWorld}

/-- The worker goes on. -/
theorem OwnedInv.turn (h : a.OwnedInv) (hturn : Turn .owned a.rx.worker w'.worker)
    (commands : List CollectorCommand) (hcommands : commands = a.commands) :
    OwnedInv { a with rx := w', commands := commands } := by
  obtain ⟨⟨new, hspawned, htold⟩, hrings⟩ := hturn
  refine ⟨hrings rfl, h.sized, fun chi => ?_⟩
  refine Eq.trans ?_ (htold chi)
  rw [slotToCome]
  dsimp only
  rw [hspawned, lastValue_append, hcommands, ← h.leads chi]
  rfl

/-- A task runs. -/
theorem OwnedInv.task (h : a.OwnedInv) {i : Nat} {t : Task}
    (ht : a.rx.worker.spawned[i]? = some t) (hfits : t.Fits a.rx i .owned)
    (hrun : a.rx.task i = some w') :
    OwnedInv { a with rx := w', commands := a.commands ++ t.collectorCommand.toList } := by
  obtain ⟨t', ht', rfl⟩ := RxWorld.task_cases hrun
  obtain rfl : t = t' := Option.some.inj (ht.symm.trans ht')
  refine ⟨h.rings, h.sized, fun chi => ?_⟩
  refine Eq.trans ?_ (h.leads chi)
  rw [slotToCome, slotToCome_sent]
  cases heffect : t.slotEffect chi with
  | none => exact lastValue_other ht heffect
  | some e =>
      refine lastValue_run ht heffect ?_
      -- the task is one for this channel
      cases t with
      | collectorConnect chi' source latency =>
          rw [Task.slotEffect] at heffect
          split at heffect
          · next heq => exact heq ▸ hfits
          · cases heffect
      | collectorDisconnect chi' =>
          rw [Task.slotEffect] at heffect
          split at heffect
          · next heq => exact heq ▸ hfits
          · cases heffect
      | receiverConnect => cases heffect
      | receiverDisconnect => cases heffect
      | removeSocket => cases heffect

theorem OwnedInv.command (h : a.OwnedInv) (hrun : a.step cfg .command = some a') :
    a'.OwnedInv ∧ a'.rx = a.rx := by
  rw [AudioWorld.step] at hrun
  split at hrun
  · cases hrun
  next c cs hcommands =>
  obtain ⟨⟨collector, b⟩, hhandle, rfl⟩ := Option.map_eq_some_iff.mp hrun
  obtain ⟨hslot, hlen, hbuffers⟩ := Collector.handleCommand_slot hhandle
  refine ⟨⟨h.rings, ?_, fun chi => ?_⟩, rfl⟩
  · dsimp only
    rw [hlen, hbuffers]
    exact h.sized
  · refine Eq.trans ?_ (h.leads chi)
    rw [slotToCome, slotToCome, hcommands, Outbox.drained_cons]
    dsimp only
    rw [hslot]

theorem OwnedInv.tick (h : a.OwnedInv) {rings : Nat → CollectorRing}
    (hrun : a.step cfg (.tick rings) = some a') : a'.OwnedInv ∧ a'.rx = a.rx := by
  obtain ⟨⟨collector, out⟩, htick, rfl⟩ := Option.map_eq_some_iff.mp hrun
  obtain ⟨hslot, hlen⟩ := Collector.tick_slot h.sized htick
  refine ⟨⟨h.rings, hlen, fun chi => ?_⟩, rfl⟩
  refine Eq.trans ?_ (h.leads chi)
  rw [slotToCome, slotToCome]
  dsimp only
  rw [hslot]

/-- When everything has run the slots are the sources. -/
theorem OwnedInv.right (h : a.OwnedInv) (hspawned : a.rx.worker.spawned = [])
    (hcommands : a.commands = []) (chi : Nat) :
    a.collector.slot chi = (a.rx.worker.source chi).map RingId.number ∧
      ((a.collector.slot chi).isSome ↔ (remoteOf a.rx.worker.channels chi).isSome) := by
  have hslot : a.collector.slot chi = (a.rx.worker.source chi).map RingId.number := by
    rw [← h.leads chi, hspawned, lastValue_nil, slotToCome, hcommands, Outbox.drained_nil]
  refine ⟨hslot, ?_⟩
  rw [hslot, Option.isSome_map]
  refine ⟨fun hsome => ?_, h.rings chi⟩
  obtain ⟨ring, hring⟩ := Option.isSome_iff_exists.mp hsome
  obtain ⟨r, hr, _⟩ := Option.bind_eq_some_iff.mp hring
  rw [hr]
  rfl

end AudioWorld

/-! ## The receiver -/

namespace FlowsReceiver

variable {rx rx' : FlowsReceiver} {ring : RingId} {cur : Option (Nat × Nat)}

/-- The ring will be among the sinks of one slot, once, or nowhere. -/
def WillBeAt (rx : FlowsReceiver) (ring : RingId) (cur : Option (Nat × Nat)) : Prop :=
  ∀ p, rx.willCount ring p = if cur = some p then 1 else 0

theorem WillBeAt.same (h : rx.WillBeAt ring cur)
    (hcount : ∀ p, rx'.willCount ring p = rx.willCount ring p) : rx'.WillBeAt ring cur :=
  fun p => (hcount p).trans (h p)

/-- The socket of a flow that the ring is not to stay in is replaced. -/
theorem WillBeAt.lose (h : rx.WillBeAt ring cur) {f : Nat}
    (hcount : ∀ p, rx'.willCount ring p = if p.1 = f then 0 else rx.willCount ring p)
    {l : List (Move (Nat × Nat))} {fin : Option (Nat × Nat)} (hleads : Leads cur l fin)
    (hfin : ∀ p ∈ fin, p.1 ≠ f) : ∃ cur', rx'.WillBeAt ring cur' ∧ Leads cur' l fin := by
  by_cases hlost : ∃ p, cur = some p ∧ p.1 = f
  · obtain ⟨p, rfl, rfl⟩ := hlost
    refine ⟨none, fun q => ?_, hleads.lost fun hp => hfin p hp rfl⟩
    rw [hcount, h q]
    split
    · rfl
    · next hne =>
        rw [if_neg fun heq => hne (by rw [Option.some.inj heq]), if_neg fun heq => by cases heq]
  · refine ⟨cur, fun p => ?_, hleads⟩
    rw [hcount, h p]
    split
    · next hp => exact (if_neg fun hcur => hlost ⟨p, hcur, hp⟩).symm
    · rfl

end FlowsReceiver

namespace RxWorld

variable {cfg : RxConfig} {w w' : RxWorld}

/-- With buffers from outside: the ring of each channel is going to be where
the channel is connected, once the tasks have run in order. -/
structure ExternalInv (w : RxWorld) : Prop where
  routed : w.receiver.Routed
  gone : ∀ ds, w.phase = .destroying ds → ∀ d ∈ ds, w.worker.flows[d.flowIndex]?.join = none
  leads : ∀ chi, ∃ cur, w.receiver.WillBeAt (.external chi) cur ∧
    Leads cur (effects (Task.move chi) w.worker.spawned) (w.worker.place chi)

theorem isLeft_place {s : Subscriber} {f : Nat} (h : s.isLeft f = true) (chi : Nat) :
    ∀ p ∈ s.place chi, p.1 ≠ f := by
  intro p hp
  obtain ⟨r, hr, rfl⟩ := Option.map_eq_some_iff.mp hp
  have hlt := RefcountsExact.remoteOf_lt hr
  have hall := List.all_eq_true.mp h (s.channels[chi]) (List.getElem_mem hlt)
  have hremote : (s.channels[chi]).bind ChannelSubscription.remote = some r := by
    rw [remoteOf, List.getElem?_eq_getElem hlt, Option.join_some] at hr
    exact hr
  rw [hremote, Option.all_some] at hall
  simpa [ChannelOtherEnd.place] using hall

/-- The flows that are destroyed are those of a scan, and the worker does
nothing else until they are. -/
theorem destroying_cases {e : RxEvent} {ds : List Subscriber.DestroyFlow}
    (hrun : w.step cfg e = some w') (hphase' : w'.phase = .destroying ds) :
    (∃ ds₀, w.phase = .destroying ds₀ ∧ (∀ d ∈ ds, d ∈ ds₀) ∧
      w'.worker.flows = w.worker.flows) ∨
    ∃ env, w.worker.scanFlows cfg.toSubscriberConfig env = some (w'.worker, ds) := by
  cases step_case hrun with
  | quiet hquiet =>
      exact .inl ⟨ds, (hquiet.destroying ds).mp hphase', fun _ => id, hquiet.flows⟩
  | handle hidle hrun =>
      obtain ⟨c, queue, next, _, _, rfl⟩ := handle_cases hrun
      cases next <;> cases hidle.symm.trans hphase'
  | resolve _ hrun =>
      obtain ⟨p, _, hrun⟩ := Option.bind_eq_some_iff.mp hrun
      obtain rfl := Option.some.inj hrun
      cases hphase'
  | job hrun =>
      obtain ⟨r, job, rest, w₁, rest', batch, _, _, _, rfl⟩ := job_cases hrun
      cases hphase'
  | apply hrun =>
      obtain ⟨r, upd, rest, worker, _, _, _, rfl⟩ := apply_cases hrun
      cases hphase'
  | scan _ hrun =>
      obtain ⟨⟨worker, destroy⟩, hscan, hrun⟩ := Option.bind_eq_some_iff.mp hrun
      obtain rfl := Option.some.inj hrun
      dsimp only at hphase'
      split at hphase'
      · cases hphase'
      · cases hphase'
        exact .inr ⟨_, hscan⟩
  | destroy hrun =>
      obtain ⟨ds₀, d, hphase, _, rfl⟩ := destroy_cases hrun
      dsimp only at hphase'
      split at hphase'
      · cases hphase'
      · cases hphase'
        exact .inl ⟨ds₀, hphase, fun d hd => List.mem_of_mem_eraseIdx hd, rfl⟩
  | task hrun =>
      obtain ⟨t, _, rfl⟩ := task_cases hrun
      exact .inl ⟨ds, hphase', fun _ => id, rfl⟩
  | receiver _ => exact .inl ⟨ds, hphase', fun _ => id, rfl⟩

/-- The flows that are destroyed are not in the table. -/
theorem ExternalInv.gone_step (h : w.ExternalInv) (cfg : RxConfig) {e : RxEvent}
    (hrun : w.step cfg e = some w') : ∀ ds, w'.phase = .destroying ds → ∀ d ∈ ds, w'.worker.flows[d.flowIndex]?.join = none := by
  intro ds hphase' d hd
  rcases destroying_cases hrun hphase' with ⟨ds₀, hphase, hsub, hflows⟩ | ⟨env, hscan⟩
  · rw [hflows]
    exact h.gone ds₀ hphase d (hsub d hd)
  · obtain ⟨_, removed, _, hperm⟩ := Subscriber.scanFlows_spawns hscan
    have hmem : d.flowIndex ∈ Subscriber.removedFrom env 0 w.worker.flows :=
      hperm.subset (List.mem_append_left _ (List.mem_map_of_mem hd))
    obtain ⟨_, flow, hflow, hout⟩ := (Subscriber.mem_removedFrom List.drop_zero).mp hmem
    rw [RefcountsExact.scanFlows_flows hscan, hflow, Option.filter_some, hout]
    rfl

/-- No channel is connected to them. -/
theorem ExternalInv.destroyed (h : w.ExternalInv) (hrefs : w.RefInv)
    {ds : List Subscriber.DestroyFlow} (hphase : w.phase = .destroying ds)
    {d : Subscriber.DestroyFlow} (hd : d ∈ ds) (chi : Nat) :
    ∀ p ∈ w.worker.place chi, p.1 ≠ d.flowIndex := by
  intro p hp hindex
  obtain ⟨r, hr, rfl⟩ := Option.map_eq_some_iff.mp hp
  obtain ⟨flow, hflow, _⟩ := hrefs.exact.slots chi r hr
  have hgone := h.gone ds hphase d hd
  rw [← hindex] at hgone
  cases hflow.symm.trans hgone

/-- What an event that is not a task does to the receiver. -/
theorem step_receiver {e : RxEvent} (hnot : ∀ i, e ≠ .task i) (hrun : w.step cfg e = some w') :
    w'.receiver = w.receiver ∨
      (∃ f sendKeepalives bytesPerSample channelsCount latencySamples,
        (∃ job ∈ w.jobs, job.newFlow = some f) ∧ w'.receiver =
          w.receiver.addSocket f sendKeepalives bytesPerSample channelsCount latencySamples) ∨
      (∃ ds, w.phase = .destroying ds ∧ ∃ d ∈ ds,
        w'.receiver = w.receiver.removeSocket d.flowIndex) ∨
      ∃ now, w.receiver.takeCommand now cfg.ringSize = some w'.receiver := by
  cases step_case hrun with
  | quiet hquiet => exact .inl hquiet.receiver
  | handle _ hrun =>
      obtain ⟨c, queue, next, _, _, rfl⟩ := handle_cases hrun
      cases next <;> exact .inl rfl
  | resolve _ hrun =>
      obtain ⟨p, _, hrun⟩ := Option.bind_eq_some_iff.mp hrun
      obtain rfl := Option.some.inj hrun
      exact .inl rfl
  | job hrun =>
      obtain ⟨r, job, rest, w₁, rest', batch, hphase, hk, hjob, rfl⟩ := job_cases hrun
      rcases (runJob_receiver hjob).2 with hsame | ⟨f, keep, bytes, count, latency, hnew, hadd⟩
      · exact .inl hsame
      · obtain ⟨others, hperm, _⟩ := executors_perm hk (.inl rfl : rest = rest ∨ rest = [])
        refine .inr (.inl ⟨f, keep, bytes, count, latency, ⟨job, ?_, hnew⟩, hadd⟩)
        rw [jobs, hphase]
        exact hperm.symm.subset List.mem_cons_self
  | apply hrun =>
      obtain ⟨r, upd, rest, worker, _, _, _, rfl⟩ := apply_cases hrun
      exact .inl rfl
  | scan _ hrun =>
      obtain ⟨⟨worker, destroy⟩, _, hrun⟩ := Option.bind_eq_some_iff.mp hrun
      obtain rfl := Option.some.inj hrun
      exact .inl rfl
  | destroy hrun =>
      obtain ⟨ds, d, hphase, hd, rfl⟩ := destroy_cases hrun
      exact .inr (.inr (.inl ⟨ds, hphase, d, List.mem_of_getElem? hd, rfl⟩))
  | task _ => exact absurd rfl (hnot _)
  | receiver htake => exact .inr (.inr (.inr ⟨_, htake⟩))

/-- The receiver goes on: the rings are going to be where they were, or in no
slot of a flow that no channel is connected to. -/
theorem ExternalInv.receiver (h : w.ExternalInv) (hrefs : w.RefInv) {e : RxEvent}
    (hnot : ∀ i, e ≠ .task i) (hrun : w.step cfg e = some w') :
    w'.receiver.Routed ∧ ∀ chi, ∃ cur, w'.receiver.WillBeAt (.external chi) cur ∧
      Leads cur (effects (Task.move chi) w.worker.spawned) (w.worker.place chi) := by
  rcases step_receiver hnot hrun with hsame | ⟨f, keep, bytes, count, latency, hnew, hadd⟩ |
    ⟨ds, hphase, d, hd, hremove⟩ | ⟨now, htake⟩
  · rw [hsame]
    exact ⟨h.routed, h.leads⟩
  · obtain ⟨job, hjob, hf⟩ := hnew
    obtain ⟨hrouted, _, hcount⟩ := h.routed.addSocket f keep bytes count latency
    rw [hadd]
    refine ⟨hrouted, fun chi => ?_⟩
    obtain ⟨cur, hcur, hleads⟩ := h.leads chi
    refine hcur.lose (hcount _) hleads fun p hp => ?_
    obtain ⟨r, hr, rfl⟩ := Option.map_eq_some_iff.mp hp
    exact (hrefs.promises.newFlow job hjob f hf).1 chi r hr
  · obtain ⟨hrouted, _, hcount⟩ := h.routed.removeSocket d.flowIndex
    rw [hremove]
    refine ⟨hrouted, fun chi => ?_⟩
    obtain ⟨cur, hcur, hleads⟩ := h.leads chi
    exact hcur.lose (hcount _) hleads (h.destroyed hrefs hphase hd chi)
  · obtain ⟨hrouted, _, hcount⟩ := h.routed.takeCommand htake
    refine ⟨hrouted, fun chi => ?_⟩
    obtain ⟨cur, hcur, hleads⟩ := h.leads chi
    exact ⟨cur, hcur.same (hcount _), hleads⟩

/-- Everybody but a task goes on. -/
theorem ExternalInv.step (h : w.ExternalInv) (hrefs : w.RefInv) (hb : cfg.buffering = .external)
    {e : RxEvent} (hnot : ∀ i, e ≠ .task i) (hrun : w.step cfg e = some w') :
    w'.ExternalInv := by
  have hturn := hrefs.turn hnot (fun howned => by rw [hb] at howned; cases howned) hrun
  rw [hb] at hturn
  obtain ⟨⟨new, hspawned, htold⟩, _⟩ := hturn
  obtain ⟨hrouted, hall⟩ := h.receiver hrefs hnot hrun
  refine ⟨hrouted, h.gone_step cfg hrun, fun chi => ?_⟩
  obtain ⟨cur, hcur, hleads⟩ := hall chi
  refine ⟨cur, hcur, ?_⟩
  rw [hspawned, effects_append]
  exact hleads.append (htold chi)

/-- A task runs. -/
theorem ExternalInv.task (h : w.ExternalInv) (cfg : RxConfig) {i : Nat} {t : Task}
    (ht : w.worker.spawned[i]? = some t) (hfits : t.Fits w i .external)
    (hrun : w.task i = some w') : w'.ExternalInv := by
  have hgone := h.gone_step cfg (e := .task i) hrun
  obtain ⟨t', ht', rfl⟩ := RxWorld.task_cases hrun
  obtain rfl : t = t' := Option.some.inj (ht.symm.trans ht')
  have hother : ∀ chi, t.move chi = none → ∀ rx : FlowsReceiver,
      (∀ p, rx.willCount (.external chi) p = w.receiver.willCount (.external chi) p) →
      ∃ cur, rx.WillBeAt (.external chi) cur ∧
        Leads cur (effects (Task.move chi) (w.worker.spawned.eraseIdx i)) (w.worker.place chi) := by
    intro chi hmove rx hcount
    obtain ⟨cur, hcur, hleads⟩ := h.leads chi
    refine ⟨cur, hcur.same hcount, ?_⟩
    rw [effects_other ht hmove]
    exact hleads
  cases t with
  | collectorConnect => exact ⟨h.routed, hgone, fun chi => hother chi rfl _ fun _ => rfl⟩
  | collectorDisconnect => exact ⟨h.routed, hgone, fun chi => hother chi rfl _ fun _ => rfl⟩
  | removeSocket f =>
      obtain ⟨hrouted, _, hcount⟩ := h.routed.removeSocket f
      refine ⟨hrouted, hgone, fun chi => ?_⟩
      obtain ⟨cur, hcur, hleads⟩ := h.leads chi
      rw [← effects_other ht rfl] at hleads
      exact hcur.lose (hcount _) hleads (isLeft_place hfits chi)
  | receiverConnect f c chi' sink =>
      obtain ⟨hrouted, _, hcount⟩ := h.routed.connectChannel f c chi' sink
      refine ⟨hrouted, hgone, fun chi => ?_⟩
      by_cases hsink : sink = .external chi
      · subst hsink
        obtain ⟨hturn, hknown⟩ := hfits
        obtain ⟨cur, hcur, hleads⟩ := h.leads chi
        rw [effects_inTurn ht (if_pos rfl) hturn] at hleads
        obtain ⟨rfl, hleads⟩ := hleads
        by_cases hslot : w.receiver.hasSlot (f, c) = true
        · refine ⟨some (f, c), fun p => ?_, hleads⟩
          show FlowsReceiver.willCount (w.receiver.connectChannel f c chi' _) _ p = _
          rw [hcount, hcur p, if_neg (by rintro ⟨⟩), Nat.zero_add]
          simp only [hslot, true_and, Option.some.injEq, eq_comm]
        · refine ⟨none, fun p => ?_, hleads.lost fun hfin => hslot (hknown hfin)⟩
          show FlowsReceiver.willCount (w.receiver.connectChannel f c chi' _) _ p = _
          rw [hcount, hcur p, if_neg (by rintro ⟨⟩), if_neg fun hcon => hslot hcon.1]
      · refine hother chi (if_neg hsink) _ fun p => ?_
        exact (hcount _ p).trans (by rw [if_neg fun hcon => hsink hcon.2.1, Nat.add_zero])
  | receiverDisconnect f c chi' rbShared =>
      obtain ⟨hrouted, _, hcount⟩ := h.routed.disconnectChannel f c chi' rbShared
      refine ⟨hrouted, hgone, fun chi => ?_⟩
      by_cases hring : rbShared = .external chi
      · subst hring
        obtain ⟨cur, hcur, hleads⟩ := h.leads chi
        rw [effects_inTurn ht (if_pos rfl) hfits] at hleads
        obtain ⟨hwhere, hleads⟩ := hleads
        refine ⟨none, fun p => ?_, hleads⟩
        show FlowsReceiver.willCount (w.receiver.disconnectChannel f c chi' _) _ p = _
        rw [hcount, hcur p]
        -- it is taken from where it is, or from nowhere
        rcases hwhere with rfl | rfl
        · simp
        · simp only [Option.some.injEq, true_and, eq_comm, Nat.sub_self, reduceCtorEq, if_false]
      · refine hother chi (if_neg hring) _ fun p => ?_
        exact (hcount _ p).trans (by rw [if_neg fun hcon => hring hcon.1, Nat.sub_zero])

/-- When everything has run each ring is where its channel is connected. -/
theorem ExternalInv.right (h : w.ExternalInv) (hspawned : w.worker.spawned = [])
    (hcommands : w.receiver.commands = []) (chi f c : Nat) :
    w.receiver.sinkCount (.external chi) f c =
      if w.worker.place chi = some (f, c) then 1 else 0 := by
  obtain ⟨cur, hcur, hleads⟩ := h.leads chi
  rw [hspawned] at hleads
  obtain rfl : cur = w.worker.place chi := hleads
  rw [← FlowsReceiver.willCount_of_done hcommands, hcur (f, c)]

end RxWorld

/-! ## Every run -/

namespace AudioWorld

variable {cfg : RxConfig} {a a' : AudioWorld}

/-- The invariant. -/
structure AudioInv (cfg : RxConfig) (a : AudioWorld) : Prop where
  refs : a.rx.RefInv
  owned : cfg.buffering = .owned → a.OwnedInv
  external : cfg.buffering = .external → a.rx.ExternalInv

theorem AudioInv.step (h : a.AudioInv cfg) {e : AudioEvent} (hfits : OrderFits cfg a e)
    (hrun : a.step cfg e = some a') : a'.AudioInv cfg := by
  cases e with
  | command =>
      have hsame : a'.rx = a.rx := by
        rw [AudioWorld.step] at hrun
        split at hrun
        · cases hrun
        obtain ⟨_, _, rfl⟩ := Option.map_eq_some_iff.mp hrun
        rfl
      exact ⟨hsame ▸ h.refs, fun hb => ((h.owned hb).command hrun).1,
        fun hb => hsame ▸ h.external hb⟩
  | tick rings =>
      have hsame : a'.rx = a.rx := by
        obtain ⟨_, _, rfl⟩ := Option.map_eq_some_iff.mp hrun
        rfl
      exact ⟨hsame ▸ h.refs, fun hb => ((h.owned hb).tick hrun).1,
        fun hb => hsame ▸ h.external hb⟩
  | rx e =>
      obtain ⟨w', hw', rfl⟩ := Option.map_eq_some_iff.mp hrun
      have hrefs := (h.refs.step hw').1
      by_cases htask : ∃ i, e = .task i
      · obtain ⟨i, rfl⟩ := htask
        obtain ⟨t, ht, _⟩ := Option.bind_eq_some_iff.mp hw'
        have hsent : sent a.rx (.task i) = t.collectorCommand.toList := by
          rw [sent, ht, Option.bind_some]
        rw [hsent]
        have hone := hfits t ht
        refine ⟨hrefs, fun hb => ?_, fun hb => ?_⟩
        · rw [hb] at hone
          exact (h.owned hb).task ht hone hw'
        · rw [hb] at hone
          exact (h.external hb).task cfg ht hone hw'
      · have hnot : ∀ i, e ≠ .task i := fun i he => htask ⟨i, he⟩
        have hsent : sent a.rx e = [] := by
          unfold sent
          split
          · next i => exact absurd rfl (hnot i)
          · rfl
        rw [hsent, List.append_nil]
        refine ⟨hrefs, fun hb => ?_, fun hb => ?_⟩
        · have hturn := h.refs.turn hnot (fun _ => (h.owned hb).rings) hw'
          rw [hb] at hturn
          exact (h.owned hb).turn hturn a.commands rfl
        · exact (h.external hb).step h.refs hb hnot hw'

theorem audioInv_start {n : Nat} {saved : List Subscriber.SavedChannelState} {worker : Subscriber}
    (hload : (Subscriber.new n).loadState cfg.toSubscriberConfig saved = some worker)
    (maxChannels : Nat) (startTimestamp : Option Clock) (channelsCount : Nat) :
    (start worker (.start maxChannels startTimestamp) channelsCount).AudioInv cfg := by
  have hnone : ∀ chi, remoteOf (Subscriber.new n).channels chi = none := by
    intro chi
    rw [remoteOf, Subscriber.new, List.getElem?_replicate]
    split <;> rfl
  obtain ⟨⟨new, hspawned, htold⟩, hrings⟩ := Turn.loadState (fun _ chi hsome => by
    rw [hnone] at hsome
    cases hsome) hload
  have hspawned' : worker.spawned = new := hspawned
  refine ⟨RxWorld.refInv_start hload _, fun hb => ⟨hrings hb, ?_, fun chi => ?_⟩,
    fun hb => ⟨FlowsReceiver.routed_start _ _, fun ds hds => (by cases hds),
      fun chi => ⟨none, fun p => ?_, ?_⟩⟩⟩
  · show (List.replicate _ _).length = (List.replicate _ _).length
    rw [List.length_replicate, List.length_replicate]
  · have hslot : slotToCome (start worker (.start maxChannels startTimestamp) channelsCount) chi =
        none := by
      show ((List.replicate channelsCount none)[chi]?.join).map CollectorChannel.source = none
      rw [List.getElem?_replicate]
      split <;> rfl
    have hsource : (Subscriber.new n).source chi = none := by
      rw [Subscriber.source, hnone, Option.bind_none]
    have hchi : Told .owned (Subscriber.new n) worker new chi := hb ▸ htold chi
    unfold Told at hchi
    dsimp only at hchi
    rw [hsource, Option.map_none] at hchi
    show lastValue _ _ worker.spawned = _
    rw [hslot, hspawned']
    exact hchi
  · obtain ⟨f, c⟩ := p
    rw [if_neg (by rintro ⟨⟩)]
    show FlowsReceiver.willCount (.start maxChannels startTimestamp) (.external chi) (f, c) = 0
    rw [FlowsReceiver.willCount_of_done rfl, FlowsReceiver.sinkCount, FlowsReceiver.start]
    dsimp only
    rw [List.getElem?_replicate]
    split
    · rfl
    · next hsocket =>
        split at hsocket <;> cases hsocket
  · have hplace : (Subscriber.new n).place chi = none := by
      rw [Subscriber.place, hnone, Option.map_none]
    have hchi : Told .external (Subscriber.new n) worker new chi := hb ▸ htold chi
    unfold Told at hchi
    dsimp only at hchi
    rw [hplace] at hchi
    show Leads _ (effects _ worker.spawned) _
    rw [hspawned']
    exact hchi

theorem AudioInv.right (h : a.AudioInv cfg) (hsettled : a.isSettled = true) : AudioRight cfg a := by
  simp only [isSettled, Bool.and_eq_true, List.isEmpty_iff] at hsettled
  obtain ⟨⟨hspawned, hreceiver⟩, hcommands⟩ := hsettled
  unfold AudioRight
  split
  · next hb => exact (h.owned hb).right hspawned hcommands
  · next hb => exact (h.external hb).right hspawned hreceiver

end AudioWorld

open AudioWorld in
/-- The last command has won whenever everything has run, in every run whose
events meet the condition. -/
theorem last_command_wins (cfg : RxConfig) (n : Nat) (saved : List Subscriber.SavedChannelState)
    (worker : Subscriber)
    (hload : (Subscriber.new n).loadState cfg.toSubscriberConfig saved = some worker)
    (maxChannels : Nat) (startTimestamp : Option Clock) (channelsCount : Nat) (a : AudioWorld)
    (h : Reaches cfg (OrderFits cfg)
      (start worker (.start maxChannels startTimestamp) channelsCount) a)
    (hsettled : a.isSettled = true) : AudioRight cfg a := by
  suffices hinv : a.AudioInv cfg from hinv.right hsettled
  clear hsettled
  induction h with
  | refl => exact audioInv_start hload maxChannels startTimestamp channelsCount
  | tail _ hstep ih =>
      obtain ⟨e, hfits, hrun⟩ := hstep
      exact ih.step hfits hrun

/-- One channel connected, until everything has run. -/
def settleOne : List AudioEvent :=
  connectOne.map .rx ++ [.command, .rx (.receiver none), .rx (.receiver none)]

open AudioWorld in
/-- The collector reads the ring of the channel that is connected. -/
theorem last_command_wins_connected :
    ∃ worker a,
      (Subscriber.new 1).loadState sampleRxConfig.toSubscriberConfig oneSaved = some worker ∧
      runWith sampleRxConfig (OrderFits sampleRxConfig) (start worker (.start 1 none) 1)
        settleOne = some a ∧
      (a.collector.slot 0).isSome := by
  obtain ⟨worker, hload⟩ := Option.isSome_iff_exists.mp (show ((Subscriber.new 1).loadState
    sampleRxConfig.toSubscriberConfig oneSaved).isSome by decide)
  have hruns : (((Subscriber.new 1).loadState sampleRxConfig.toSubscriberConfig oneSaved).bind
      fun worker => (runWith sampleRxConfig (OrderFits sampleRxConfig)
        (start worker (.start 1 none) 1) settleOne).map fun a =>
          (a.isSettled, (remoteOf a.rx.worker.channels 0).isSome)) = some (true, true) := by
    decide
  rw [hload, Option.bind_some] at hruns
  obtain ⟨a, ha, hend⟩ := Option.map_eq_some_iff.mp hruns
  obtain ⟨hsettled, hremote⟩ := Prod.mk.inj hend
  have hright := last_command_wins sampleRxConfig 1 oneSaved worker hload 1 none 1 a
    (reaches_of_runWith ha) hsettled
  exact ⟨worker, a, hload, ha, (hright 0).2.mpr hremote⟩

/-- The channel is unsubscribed before the tasks of its connection have run;
the task that disconnects it runs first. -/
def overtakeOne : List AudioEvent :=
  (connectOne.take 6).map .rx ++ [.rx (.unsubscribe 0), .rx .handle,
    .rx (.task 2), .rx (.task 1), .rx (.task 0), .command, .command,
    .rx (.receiver none), .rx (.receiver none)]

open AudioWorld in
/-- The collector reads a ring for a channel that is not connected. -/
theorem disconnect_overtakes_connect :
    ¬ ∀ worker, (Subscriber.new 1).loadState sampleRxConfig.toSubscriberConfig oneSaved =
        some worker → ∀ a, Reaches sampleRxConfig (fun _ _ => True)
          (start worker (.start 1 none) 1) a → a.isSettled = true →
        AudioRight sampleRxConfig a := by
  intro h
  obtain ⟨worker, hload⟩ := Option.isSome_iff_exists.mp (show ((Subscriber.new 1).loadState
    sampleRxConfig.toSubscriberConfig oneSaved).isSome by decide)
  have hruns : (((Subscriber.new 1).loadState sampleRxConfig.toSubscriberConfig oneSaved).bind
      fun worker => (runWith sampleRxConfig (fun _ _ => True)
        (start worker (.start 1 none) 1) overtakeOne).map fun a =>
          (a.isSettled, (remoteOf a.rx.worker.channels 0).isSome, a.collector.slot 0)) =
      some (true, false, some 0) := by
    decide
  rw [hload, Option.bind_some] at hruns
  obtain ⟨a, ha, hend⟩ := Option.map_eq_some_iff.mp hruns
  obtain ⟨hsettled, hremote, hslot⟩ := by simpa only [Prod.mk.injEq] using hend
  have hright := (h worker hload a (reaches_of_runWith ha) hsettled 0).2
  rw [hslot, hremote] at hright
  cases hright.mp rfl

end Inferno
