import Inferno.AudioNetwork

/-!
# Where audio comes from

The invariant of the network: each packet carries what was pushed before, each ring
tells what the packets for its slot carry, and each call of the callback was told by the
rings. From it, what an application gets is silence, or what another has pushed the same
time before (`heard_was_pushed`).
-/

namespace Inferno

open Function Interleave

namespace AudioNet

variable {D : Type} {setup : AudioSetup D} {w w' : AudioNet D}

/-- What a callback was told is silence where its channel reads no ring, and heard of the
ring at its time where it does. -/
def Told (setup : AudioSetup D) (w : AudioNet D) (pb : Playback) : Prop :=
  ∀ (ch : Nat) (buffer : List Sample), pb.delivery.buffers[ch]? = some buffer →
    ∀ i < pb.delivery.interval.count, ∃ z, buffer[i]? = some z ∧
      (z = 0 ∨ ∃ k, pb.sources[ch]? = some (some k) ∧
        Heard setup w (setup.ring k) (pb.delivery.interval.start + BitVec.ofNat 64 i) z)

theorem Told.later (hlater : w.Later w') {pb : Playback} (h : Told setup w pb) :
    Told setup w' pb := by
  intro ch buffer hbuffer i hi
  obtain ⟨z, hz, hheard⟩ := h ch buffer hbuffer i hi
  refine ⟨z, hz, hheard.imp id ?_⟩
  rintro ⟨k, hk, hheard⟩
  exact ⟨k, hk, hheard.later hlater⟩

theorem Wired.congr (h : w.Wired setup) (hrx : w'.rx = w.rx) (hbound : w'.bound = w.bound)
    (hjoined : w'.joined = w.joined) : w'.Wired setup where
  waiting := hrx ▸ h.waiting
  unshifted := hrx ▸ h.unshifted
  shifted := hrx ▸ h.shifted
  prepared := hrx ▸ h.prepared
  bound := hrx ▸ hbound ▸ h.bound
  sinks := hrx ▸ hbound ▸ hjoined ▸ h.sinks
  writers := hrx ▸ hjoined ▸ h.writers
  fresh := hrx ▸ hjoined ▸ h.fresh

theorem Later.of_collector (w : AudioNet D) (collector : Collector) (played : List Playback) :
    w.Later { w with collector := collector, played := played } where
  joined _ _ hj := hj
  sent _ hx := hx
  pushed _ _ := ⟨[], (List.append_nil _).symm⟩

structure Inv (setup : AudioSetup D) (w : AudioNet D) : Prop where
  pushers : ∀ d, ∃ total, (w.tx d).pusher.After (setup.startTimestamp d).toInt (setup.channels d)
    total (w.pushed d)
  carried : ∀ x ∈ w.sent, x.2.Carries (setup.config x.1) (setup.startTimestamp x.1).toInt
    (w.pushed x.1)
  wired : w.Wired setup
  rings : ∀ r, Tells (setup.shape r) (Heard setup w r) (w.rx.rings r)
  sized : w.collector.Sized
  played : ∀ pb ∈ w.played, Told setup w pb

theorem start_inv (setup : AudioSetup D) : (start setup).Inv setup where
  pushers d := ⟨0, TxPusher.after_new _ _⟩
  carried _ hx := absurd hx List.not_mem_nil
  wired := start_wired setup
  rings _ := tells_newOwned setup.holeFixWait_le
  sized := ⟨by simp [start, Collector.new], fun b hb => by
    rw [List.eq_of_mem_replicate hb, List.length_replicate]⟩
  played _ hpb := absurd hpb List.not_mem_nil

/-! ## A packet that arrives -/

/-- What is written of a packet was pushed as much before as the latency and the offsets
say. -/
theorem Wired.heard_arrival (h : w.Wired setup) {d : D} {p : TxPacket} (hsent : (d, p) ∈ w.sent)
    (hcarries : p.Carries (setup.config d) (setup.startTimestamp d).toInt (w.pushed d))
    {f : Nat} {socket : RxSocket} (hsocket : w.rx.rx.sockets[f]?.join = some socket)
    (hbound : w.bound f = some p.flow.socket) (hagrees : Agrees setup socket d p)
    {calls : List (SinkWrite RingId)}
    (hcalls : sinkWrites socket.bytesPerSample socket.channels
      (headerTimestamp setup.sampleRate p.buf) p.buf p.len = some calls) :
    ∀ c ∈ calls, ∀ j x, c.items[j]? = some x →
      Heard setup w c.sink (c.startTimestamp + BitVec.ofNat 64 j) x := by
  intro c hc j x hx
  cases hw : SampleWidth.ofBytes? socket.bytesPerSample with
  | none =>
      -- an unsupported width is written nowhere
      simp only [sinkWrites, hw] at hcalls
      split at hcalls
      · cases hcalls
      · split at hcalls
        · cases hcalls
          cases hc
        · cases hcalls
  | some width =>
      have hbytes := SampleWidth.bytes_of_ofBytes? hw
      have hlen : p.len = 9 + socket.channels.length * width.bytes * p.flow.fpp := by
        rw [hcarries.len, Flow.packetLen, Flow.stride, hagrees.slots, hagrees.bytesPerSample, hbytes]
      rw [hlen, ← hbytes] at hcalls
      obtain ⟨i, ch, hch, hsink, hstart, hitems⟩ := sinkWrites_cells hcalls hc
      obtain ⟨hj, rfl⟩ := hitems j x hx
      have hi : i < p.flow.channelIndices.length := by
        rw [hagrees.slots]
        exact join_lt hch
      have hjoined := h.sinks f i c.sink socket ch _ hsocket hch hsink hbound
      obtain ⟨_, hshift⟩ := h.shifted f socket hsocket i ch hch
      rw [h.unshifted, Option.getD_none, sub_zero] at hshift
      have hheader := hcarries.header hagrees.seconds
      rw [hagrees.sampleRate] at hheader
      have hwidth : SampleWidth.ofBytes? p.flow.bytesPerSample = some width := by
        rw [hagrees.bytesPerSample, hw]
      obtain ⟨x, hnear, hfrom⟩ := hcarries.samples width hwidth i hi j hj
      rw [← hagrees.slots]
      refine .packet hjoined hsent rfl hwidth hnear (hfrom.imp id ?_)
      rintro ⟨ch', T, hch', hT, rfl⟩
      refine ⟨ch', T, by rw [List.getElem?_eq_getElem hi, hch'], ?_, rfl⟩
      rw [hT, hstart, hheader, hshift]
      ring

/-! ## Steps -/

theorem mem_arrivals {socketIndex : Nat} {packets : List Nat} {x : D × TxPacket}
    (h : x ∈ w.arrivals socketIndex packets) :
    x ∈ w.sent ∧ w.bound socketIndex = some x.2.flow.socket := by
  obtain ⟨k, _, hk⟩ := List.mem_filterMap.mp h
  obtain ⟨hget, hbound⟩ := Option.filter_eq_some_iff.mp hk
  exact ⟨List.mem_of_getElem? hget, of_decide_eq_true hbound⟩

/-- The thread has called its rings, and everything else stays as it was. -/
theorem Inv.called (h : w.Inv setup) {rx : ReceiverThread}
    (hwired : ({ w with rx := rx } : AudioNet D).Wired setup)
    (hrings : ∀ r, Tells (setup.shape r) (Heard setup w r) (rx.rings r)) :
    ({ w with rx := rx } : AudioNet D).Inv setup := by
  have hlater : w.Later { w with rx := rx } := .of_rx fun _ _ hj => hj
  exact {
    pushers := h.pushers
    carried := h.carried
    wired := hwired
    rings := fun r => (hrings r).mono fun _ _ hheard => hheard.later hlater
    sized := h.sized
    played := fun pb hpb => (h.played pb hpb).later hlater }

theorem Inv.tx [DecidableEq D] (h : w.Inv setup) {d : D} {a : TxAction}
    (hfull : a.Full (setup.channels d)) (hstep : w.step setup (.tx d a) = some w') :
    w'.Inv setup := by
  obtain ⟨⟨s, sent⟩, hs, hstep⟩ := Option.bind_eq_some_iff.mp hstep
  cases hstep
  obtain ⟨total, hafter⟩ := h.pushers d
  have hcarries := TxSystem.step_carries hafter hs
  obtain ⟨total', hafter'⟩ := TxSystem.step_after hafter hfull hs
  have hpushed : ∀ e ch, ∃ more,
      update w.pushed d (fun ch => w.pushed d ch ++ a.pushed ch) e ch = w.pushed e ch ++ more := by
    intro e ch
    by_cases he : e = d
    · rw [he, update_self]
      exact ⟨_, rfl⟩
    · rw [update_of_ne he]
      exact ⟨[], (List.append_nil _).symm⟩
  have hlater : w.Later { w with
      tx := update w.tx d s
      pushed := update w.pushed d fun ch => w.pushed d ch ++ a.pushed ch
      sent := w.sent ++ sent.map fun p => (d, p) } :=
    ⟨fun _ _ hj => hj, fun x hx => List.mem_append_left _ hx, hpushed⟩
  exact {
    pushers := fun e => by
      by_cases he : e = d
      · subst he
        dsimp only
        rw [update_self, update_self]
        exact ⟨total', hafter'⟩
      · dsimp only
        rw [update_of_ne he, update_of_ne he]
        exact h.pushers e
    carried := fun x hx => by
      have hold : x.2.Carries (setup.config x.1) (setup.startTimestamp x.1).toInt (w.pushed x.1) := by
        rcases List.mem_append.mp hx with hx | hx
        · exact h.carried x hx
        · obtain ⟨p, hp, rfl⟩ := List.mem_map.mp hx
          exact hcarries p hp
      dsimp only
      by_cases he : x.1 = d
      · rw [he, update_self]
        rw [he] at hold
        exact hold.mono
      · rw [update_of_ne he]
        exact hold
    wired := h.wired.congr rfl rfl rfl
    rings := fun r => (h.rings r).mono fun _ _ hheard => hheard.later hlater
    sized := h.sized
    played := fun pb hpb => (h.played pb hpb).later hlater }

theorem Inv.command [DecidableEq D] (h : w.Inv setup) {c : RxCommand} {addr : SocketAddr}
    {now : Option Clock} (hsound : w.Sound setup (.command c addr now))
    (hstep : w.step setup (.command c addr now) = some w') : w'.Inv setup := by
  obtain ⟨hbuilt, hnew⟩ := hsound
  obtain ⟨rx, hrx, hstep⟩ := Option.bind_eq_some_iff.mp hstep
  cases hstep
  have hwired := h.wired.command hbuilt hnew addr hrx
  have hlater : w.Later { w with rx := rx, bound := w.boundBy addr c, joined := w.joinedBy c } :=
    .of_rx fun _ _ hj => joinedBy_of_some hnew hj
  obtain ⟨tables, _, hrx⟩ := Option.bind_eq_some_iff.mp hrx
  cases hrx
  refine {
    pushers := h.pushers
    carried := h.carried
    wired := hwired
    rings := fun r => ?_
    sized := h.sized
    played := fun pb hpb => (h.played pb hpb).later hlater }
  dsimp only
  rcases h.wired.resetRing now hnew r with heq | ⟨_, _, startTime, heq⟩
  · rw [heq]
    exact (h.rings r).mono fun _ _ hheard => hheard.later hlater
  · rw [heq]
    exact tells_newOwned setup.holeFixWait_le

theorem Inv.arrive [DecidableEq D] (h : w.Inv setup) {socketIndex : Nat} {packets : List Nat}
    (hsound : w.Sound setup (.arrive socketIndex packets))
    (hstep : w.step setup (.arrive socketIndex packets) = some w') : w'.Inv setup := by
  obtain ⟨rx, hrx, hstep⟩ := Option.bind_eq_some_iff.mp hstep
  cases hstep
  have hlook : w.rx.lookForStart none = w.rx := by
    unfold ReceiverThread.lookForStart
    split
    · next heq => cases heq
    · rfl
  rw [ReceiverThread.step, hlook] at hrx
  obtain ⟨htables, hwaiting⟩ := ReceiverThread.receive_rx hrx
  refine h.called (h.wired.called hwaiting (by rw [htables]) (by rw [htables])
    (fun sw hsw => by rw [htables] at hsw; exact hsw)
    fun r hr => ReceiverThread.receive_other (h.wired.unsunk hr) hrx) ?_
  unfold ReceiverThread.receive at hrx
  cases hsocket : w.rx.rx.sockets[socketIndex]?.join with
  | none =>
      rw [hsocket] at hrx
      cases hrx
      exact h.rings
  | some socket =>
      rw [hsocket] at hrx
      obtain ⟨rings, hrings, hrx⟩ := Option.bind_eq_some_iff.mp hrx
      cases hrx
      obtain ⟨hagrees, hfit⟩ := hsound socket hsocket
      rw [h.wired.waiting, Bool.not_false] at hrings
      refine tells_receiveInto h.rings hfit (fun datagram hd calls hcalls => ?_) hrings
      obtain ⟨x, hx, rfl⟩ := List.mem_map.mp hd
      obtain ⟨hsent, hbound⟩ := mem_arrivals hx
      exact h.wired.heard_arrival hsent (h.carried x hsent) hsocket hbound (hagrees x hx) hcalls

theorem closeSilence_writers (rx : FlowsReceiver) (ts : Clock) :
    ∀ sw ∈ (rx.closeSilence ts).silenceWriters, sw ∈ rx.silenceWriters := by
  intro sw hsw
  unfold FlowsReceiver.closeSilence at hsw
  split at hsw
  · exact hsw
  · exact mem_of_mem_swapRemove hsw

theorem Inv.closingTick [DecidableEq D] (h : w.Inv setup) {now : Option Clock}
    (hsound : w.Sound setup (.closingTick now))
    (hstep : w.step setup (.closingTick now) = some w') : w'.Inv setup := by
  obtain ⟨rx, hrx, hstep⟩ := Option.bind_eq_some_iff.mp hstep
  cases hstep
  rw [ReceiverThread.step, ReceiverThread.close] at hrx
  cases hts : w.rx.tickTime now with
  | none =>
      rw [hts] at hrx
      cases hrx
      exact h
  | some ts =>
      rw [hts] at hrx
      obtain ⟨rings, hrings, hrx⟩ := Option.bind_eq_some_iff.mp hrx
      cases hrx
      have hsockets := w.rx.rx.closeSilence_sockets ts
      have hstart : (w.rx.rx.closeSilence ts).startTimestamp = w.rx.rx.startTimestamp := by
        unfold FlowsReceiver.closeSilence
        split <;> rfl
      refine h.called (h.wired.called rfl hsockets hstart (closeSilence_writers _ ts) fun r hr => ?_) ?_
      · -- a ring that is not joined is not among those that are closed
        obtain ⟨rings', hclose, hall⟩ := @closeRings_eq setup.shape ts w.rx.rings
          (w.rx.rx.sinkIds ++ w.rx.rx.silenceWriters.map SilenceWriter.sink)
        obtain rfl := Option.some.inj (hclose.symm.trans hrings)
        have hcount : (w.rx.rx.sinkIds ++ w.rx.rx.silenceWriters.map SilenceWriter.sink).count r =
            0 := by
          rw [List.count_eq_zero, List.mem_append, not_or]
          refine ⟨(w.rx.rx.unsunk_iff r).mp (h.wired.unsunk hr), fun hmem => ?_⟩
          obtain ⟨sw, hsw, rfl⟩ := List.mem_map.mp hmem
          exact h.wired.writers sw hsw hr
        dsimp only
        rw [hall, hcount]
        rfl
      · refine tells_calls h.rings (hsound ts hts) (fun c hc => ?_) ?_
        · obtain ⟨r, _, rfl⟩ := List.mem_map.mp hc
          trivial
        · rw [List.foldlM_map]
          exact hrings

/-- What the callback gets at a tick is told by the rings. -/
theorem Inv.tick [DecidableEq D] (h : w.Inv setup) (hstep : w.step setup .tick = some w') :
    w'.Inv setup := by
  obtain ⟨⟨collector, out⟩, htick, hstep⟩ := Option.bind_eq_some_iff.mp hstep
  cases hstep
  choose R tl hsteady htl using fun k => h.rings (setup.ring k)
  have hrings : RingsFaithful fun k =>
      ⟨setup.shape (setup.ring k), (w.rx.rings (setup.ring k)).2, tl k⟩ :=
    fun k => (hsteady k).readsTimeline rfl
  obtain ⟨collector', out', htick', hsized, hfaithful⟩ := h.sized.faithful hrings
  obtain ⟨rfl, rfl⟩ := Prod.mk.inj (Option.some.inj (htick'.symm.trans htick))
  have hlater := Later.of_collector w collector'
  refine {
    pushers := h.pushers
    carried := h.carried
    wired := h.wired.congr rfl rfl rfl
    rings := fun r => (h.rings r).mono fun _ _ hheard => hheard.later (hlater _)
    sized := hsized
    played := fun pb hpb => ?_ }
  rcases List.mem_append.mp hpb with hpb | hpb
  · exact (h.played pb hpb).later (hlater _)
  · obtain ⟨d, hd, rfl⟩ := List.mem_map.mp hpb
    obtain ⟨_, _, _, hright⟩ := hfaithful d (Option.mem_toList.mp hd)
    intro ch buffer hbuffer i hi
    have hlt : ch < w.collector.channels.length := by
      rw [← hright.channels]
      exact (List.getElem?_eq_some_iff.mp hbuffer).1
    obtain ⟨buffer', hbuffer', haudio⟩ := hright.audio ch _ (List.getElem?_eq_getElem hlt)
    obtain rfl := Option.some.inj (hbuffer'.symm.trans hbuffer)
    rcases haudio i hi with hzero | ⟨channel, hchannel, hvalue⟩
    · exact ⟨0, hzero, Or.inl rfl⟩
    · refine ⟨_, hvalue, Or.inr ⟨channel.source, ?_, ?_⟩⟩
      · dsimp only
        rw [List.getElem?_map, List.getElem?_eq_getElem hlt, hchannel]
        rfl
      · exact ((htl channel.source).value (fun _ => .silence rfl) _ i).later (hlater _)

theorem Inv.step [DecidableEq D] (h : w.Inv setup) {e : AudioNetEvent D}
    (hsound : w.Sound setup e) (hstep : w.step setup e = some w') : w'.Inv setup := by
  cases e with
  | tx d a => exact h.tx hsound hstep
  | command c addr now => exact h.command hsound hstep
  | arrive socketIndex packets => exact h.arrive hsound hstep
  | closingTick now => exact h.closingTick hsound hstep
  | tick => exact h.tick hstep
  | collect c =>
      obtain ⟨⟨collector, b⟩, hc, hstep⟩ := Option.bind_eq_some_iff.mp hstep
      cases hstep
      exact {
        pushers := h.pushers
        carried := h.carried
        wired := h.wired.congr rfl rfl rfl
        rings := fun r => (h.rings r).mono fun _ _ hheard => hheard.later
          (.of_collector w collector w.played)
        sized := AudioState.handleCommand_sized h.sized hc
        played := fun pb hpb => (h.played pb hpb).later (.of_collector w collector w.played) }

theorem run_inv [DecidableEq D] {events : List (AudioNetEvent D)} (h : w.Inv setup)
    (hsound : SoundRun setup w events) (hrun : w.run setup events = some w') : w'.Inv setup := by
  induction events generalizing w with
  | nil =>
      cases hrun
      exact h
  | cons e events ih =>
      rw [run, List.foldlM_cons] at hrun
      obtain ⟨w₁, hstep, hrun⟩ := Option.bind_eq_some_iff.mp hrun
      exact ih (h.step hsound.1 hstep) (hsound.2 w₁ hstep) hrun

end AudioNet

/-- Whatever the devices push and send, and the network does with it, a callback gets
silence, or what was pushed to the channel that a packet had in the slot of the ring:
always as much before as the latency of the socket and the offsets of the device say. -/
theorem heard_was_pushed {D : Type} [DecidableEq D] (setup : AudioSetup D)
    (events : List (AudioNetEvent D)) (hsound : AudioNet.SoundRun setup (.start setup) events)
    {w : AudioNet D} (hrun : (AudioNet.start setup).run setup events = some w) :
    ∀ pb ∈ w.played, ∀ (ch : Nat) (buffer : List Sample),
      pb.delivery.buffers[ch]? = some buffer →
      ∀ i < pb.delivery.interval.count, ∃ z, buffer[i]? = some z ∧
        (z = 0 ∨ ∃ k, pb.sources[ch]? = some (some k) ∧ AudioNet.Heard setup w (setup.ring k)
          (pb.delivery.interval.start + BitVec.ofNat 64 i) z) :=
  (AudioNet.run_inv (AudioNet.start_inv setup) hsound hrun).played

/-- A device whose audio is two samples ahead of the packets, and a ring of sixteen. -/
def oneDevice : AudioSetup Unit where
  config _ := ⟨48000, [], 0, 48, -2⟩
  channels _ := 2
  startTimestamp _ := 1000
  flags _ _ := false
  ditherRng _ := ⟨fun _ => 0, 0⟩
  sampleRate := 48000
  maxChannels := 1
  bufferLength := 16
  bufferLength_le := by decide
  holeFixWait := 0
  holeFixWait_le := by decide
  ringStart _ := 0

/-- The second channel is sent in the second slot, and heard from there: the first packet
arrives twice, and again after the second one. -/
def twoPackets : List (AudioNetEvent Unit) :=
  [.command (.addSocket 0 ⟨false, 3, 4, [none, none], [[], []]⟩) ⟨0, 4321⟩ none,
    .command (.connectChannel 0 1 (oneDevice.ring 0)) ⟨0, 0⟩ (some 1000),
    .collect (.connectChannel 0 0 4),
    .tx () (.command (.addFlow 0 ⟨0, 4321⟩ [none, some 1] 2 3 true 7) (some 1000)),
    .tx () (.push [[0x100, 0x200, 0x300, 0x400], [0x500, 0x600, 0x700, 0x800]]),
    .tx () (.transmit ⟨fun _ => some 21, fun _ => none, fun _ => none⟩ 1003 false 3),
    .tx () (.transmit ⟨fun _ => some 21, fun _ => none, fun _ => none⟩ 1005 false 3),
    .arrive 0 [0, 0],
    .tick,
    .arrive 0 [1, 0, 1],
    .tick]

theorem twoPackets_played : (((AudioNet.start oneDevice).run oneDevice twoPackets).map fun w =>
    w.played.map fun pb => (pb.delivery.interval, pb.delivery.buffers.map (List.take 2))) =
      some [(⟨1008, 2⟩, [[0x700, 0x800]])] := by
  decide +kernel

theorem heard_was_pushed_twoPackets : ∃ w buffer pb,
    (AudioNet.start oneDevice).run oneDevice twoPackets = some w ∧ pb ∈ w.played ∧
      pb.delivery.buffers[0]? = some buffer ∧ buffer.take 2 = [0x700, 0x800] ∧
      ∀ i < 2, ∃ z, buffer[i]? = some z ∧ (z = 0 ∨ ∃ k, pb.sources[0]? = some (some k) ∧
        AudioNet.Heard oneDevice w (oneDevice.ring k) (1008 + BitVec.ofNat 64 i) z) := by
  obtain ⟨w, hrun, hplayed⟩ := Option.map_eq_some_iff.mp twoPackets_played
  obtain ⟨pb, hpb, heq⟩ := List.map_eq_singleton_iff.mp hplayed
  obtain ⟨hinterval, hbuffers⟩ := Prod.mk.inj heq
  obtain ⟨buffer, hbuffer, htake⟩ := List.map_eq_singleton_iff.mp hbuffers
  have hmem : pb ∈ w.played := hpb ▸ List.mem_singleton_self pb
  have hget : pb.delivery.buffers[0]? = some buffer := by rw [hbuffer]; rfl
  have hheard := heard_was_pushed oneDevice twoPackets (by decide +kernel) hrun pb hmem 0 buffer hget
  rw [hinterval] at hheard
  exact ⟨w, buffer, pb, hrun, hmem, hget, htake, hheard⟩

end Inferno
