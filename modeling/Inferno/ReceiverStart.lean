import Inferno.ReceiverThread

/-!
# The start time and the rings

A thread for external buffers learns its start time from the application, and
channels may be connected before. The shift of a channel is right in either
order (`Shifted`); the ring of its sink is reset once, when it is connected, with
the start time known then. As long as the thread waits no other ring changes
(`step_waiting`), so a ring connected before the start time stays behind by the
start time (`joined_in_timeline_iff`).
-/

namespace Inferno

/-! ## Shifts -/

/-- The channels have the socket's latency, and the shift from the start time. -/
def RxSocket.Shifted (startTime : Clock) (socket : RxSocket) : Prop :=
  ∀ (c : Nat) ch, socket.channels[c]?.join = some ch →
    ch.latencySamples = BitVec.ofNat 64 socket.latencySamples ∧
      ch.timestampShift = BitVec.ofNat 64 socket.latencySamples - startTime

theorem RxSocket.shiftFrom_join (startTime : Clock) (socket : RxSocket) (c : Nat) :
    (socket.shiftFrom startTime).channels[c]?.join =
      (socket.channels[c]?.join).map (RxChannel.shiftFrom startTime) := by
  rw [shiftFrom]
  dsimp only
  rw [List.getElem?_map]
  rcases socket.channels[c]? with _ | _ | ch <;> rfl

namespace FlowsReceiver

variable {rx rx' : FlowsReceiver}

/-- The sockets are shifted from the start time, or from zero. -/
def Shifted (rx : FlowsReceiver) : Prop :=
  ∀ (f : Nat) socket, rx.sockets[f]?.join = some socket →
    socket.Shifted (rx.startTimestamp.getD 0)

theorem shifted_set {sockets : List (Option RxSocket)} {startTime : Clock} {f : Nat}
    (h : ∀ (f : Nat) socket, sockets[f]?.join = some socket → socket.Shifted startTime)
    (hf : f < sockets.length) {socket : RxSocket} (hsocket : socket.Shifted startTime) :
    ∀ (f' : Nat) socket', (sockets.set f (some socket))[f']?.join = some socket' →
      socket'.Shifted startTime := by
  intro f' socket' hget
  rw [join_set hf] at hget
  split at hget
  · rw [← Option.some.inj hget]
    exact hsocket
  · exact h f' socket' hget

theorem channel_set {socket : RxSocket} {startTime : Clock} {c : Nat} {ch : RxChannel RingId}
    (h : socket.Shifted startTime) (hc : c < socket.channels.length)
    (hch : ch.latencySamples = BitVec.ofNat 64 socket.latencySamples ∧
      ch.timestampShift = BitVec.ofNat 64 socket.latencySamples - startTime) :
    RxSocket.Shifted startTime { socket with channels := socket.channels.set c (some ch) } := by
  intro c' ch' hget
  rw [join_set hc] at hget
  split at hget
  · rw [← Option.some.inj hget]
    exact hch
  · exact h c' ch' hget

/-- The slot has the sink, in a channel that was there or a new one. -/
theorem pushSink_shifted {socket socket' : RxSocket} {startTime : Clock} {c : Nat} {sink : RingId}
    (h : socket.Shifted startTime)
    (hpush : pushSink socket c sink (BitVec.ofNat 64 socket.latencySamples - startTime) =
      some socket') :
    socket'.Shifted startTime ∧
      ∃ ch, socket'.channels[c]?.join = some ch ∧ sink ∈ ch.sinks := by
  unfold pushSink at hpush
  split at hpush
  · cases hpush
  · next channel hchannel =>
      cases hpush
      have hc := (List.getElem?_eq_some_iff.mp hchannel).1
      refine ⟨channel_set h hc (h c channel (by rw [hchannel]; rfl)),
        _, by rw [join_set hc, if_pos rfl], by simp⟩
  · next hchannel =>
      split at hpush
      · cases hpush
      · next sinks hsinks =>
          cases hpush
          have hc := (List.getElem?_eq_some_iff.mp hchannel).1
          have hset := @channel_set socket startTime c ⟨sinks ++ [sink], _, _⟩ h hc ⟨rfl, rfl⟩
          exact ⟨hset, _, by rw [join_set hc, if_pos rfl], by simp⟩

theorem handle_startTimestamp {now : Option Clock} {ringSize : RingId → Nat} {c : RxCommand}
    (h : rx.handle now ringSize c = some rx') : rx'.startTimestamp = rx.startTimestamp := by
  cases handled_of_handle h <;> rfl

theorem handle_shifted {now : Option Clock} {ringSize : RingId → Nat} {c : RxCommand}
    (hs : rx.Shifted) (hfresh : c.Fresh) (h : rx.handle now ringSize c = some rx') :
    rx'.Shifted := by
  have hstart := handle_startTimestamp h
  rw [Shifted, hstart]
  cases handled_of_handle h with
  | added hindex =>
      refine shifted_set hs hindex fun c ch hch => ?_
      cases hfresh.1 _ (List.mem_of_getElem? (Option.join_eq_some_iff.mp hch))
  | removed hsocket =>
      intro f socket hget
      dsimp only at hget
      rw [join_set_none] at hget
      split at hget
      · cases hget
      · exact hs f socket hget
  | notConnected | notDisconnected => exact hs
  | connected hsocket hc hpush =>
      exact shifted_set hs (join_lt hsocket) (pushSink_shifted (hs _ _ hsocket) hpush).1
  | @disconnected index c _ _ socket ch hsocket hch =>
      exact shifted_set hs (join_lt hsocket)
        (channel_set (hs index socket hsocket) (join_lt hch) (hs index socket hsocket c ch hch))

theorem pickStart_shifted (h : rx.Shifted) (startTime : Clock) :
    (rx.pickStart startTime).Shifted := by
  intro f socket hget
  rw [pickStart_join] at hget
  obtain ⟨socket, hsocket, rfl⟩ := Option.map_eq_some_iff.mp hget
  intro c ch hch
  rw [RxSocket.shiftFrom_join] at hch
  obtain ⟨ch, hold, rfl⟩ := Option.map_eq_some_iff.mp hch
  obtain ⟨hlatency, _⟩ := h f socket hsocket c ch hold
  exact ⟨hlatency, congrArg (· - startTime) hlatency⟩

end FlowsReceiver

namespace ReceiverThread

variable {shape : RingId → RingShared} {sampleRate : BitVec 32} {t t' : ReceiverThread}
  {r : RingId}

/-- A thread that waits knows no start time, and its channels are shifted by the
start time it knows. -/
structure Timed (t : ReceiverThread) : Prop where
  unknown : t.waiting = true → t.rx.startTimestamp = none
  shifted : t.rx.Shifted

theorem timed_start (maxChannels : Nat) (waiting : Bool) (rings : RingId → RingState Sample) :
    (start maxChannels waiting rings).Timed where
  unknown := fun _ => rfl
  shifted := by
    intro f socket hsocket
    rw [start, FlowsReceiver.start] at hsocket
    simp only [List.getElem?_replicate] at hsocket
    split at hsocket <;> cases hsocket

theorem Timed.lookForStart (h : t.Timed) (startTime : Option Clock) :
    (t.lookForStart startTime).Timed := by
  unfold ReceiverThread.lookForStart
  split
  · exact ⟨by simp, FlowsReceiver.pickStart_shifted h.shifted _⟩
  · exact h

theorem Timed.step {e : ReceiverEvent} (h : t.Timed) (hfresh : e.Fresh)
    (hstep : t.step shape sampleRate e = some t') : t'.Timed := by
  cases e with
  | command c now =>
      obtain ⟨rx, hrx, hstep⟩ := Option.bind_eq_some_iff.mp hstep
      cases hstep
      refine ⟨fun hwait => ?_, FlowsReceiver.handle_shifted h.shifted hfresh hrx⟩
      exact (FlowsReceiver.handle_startTimestamp hrx).trans (h.unknown hwait)
  | readable socketIndex startTime datagrams =>
      obtain ⟨hrx, hwaiting⟩ := receive_rx hstep
      have hlooked := h.lookForStart startTime
      refine ⟨?_, ?_⟩
      · rw [hrx, hwaiting]
        exact hlooked.unknown
      · rw [hrx]
        exact hlooked.shifted
  | closingTick now =>
      rcases @close_eq shape now t with ⟨ts, _, rings, hclose, _⟩ | ⟨_, hclose⟩
      · obtain rfl := Option.some.inj (hclose.symm.trans hstep)
        have hstart : (t.rx.closeSilence ts).startTimestamp = t.rx.startTimestamp := by
          unfold FlowsReceiver.closeSilence
          split <;> rfl
        refine ⟨fun hwait => hstart.trans (h.unknown hwait), ?_⟩
        show (t.rx.closeSilence ts).Shifted
        rw [FlowsReceiver.Shifted, t.rx.closeSilence_sockets ts, hstart]
        exact h.shifted
      · obtain rfl := Option.some.inj (hclose.symm.trans hstep)
        exact h

theorem Timed.run {es : List ReceiverEvent} (h : t.Timed) (hfresh : ∀ e ∈ es, e.Fresh)
    (hrun : t.run shape sampleRate es = some t') : t'.Timed :=
  Partial.foldlM_inv (fun _ _ _ he ht hstep => ht.step (hfresh _ he) hstep) h hrun

/-! ## Waiting -/

theorem receiveInto_silent (socket : RxSocket) (ds : List Datagram)
    (rings : RingId → RingState Sample) :
    receiveInto shape sampleRate false socket ds rings = some rings := by
  induction ds with
  | nil => rfl
  | cons d ds ih =>
      rw [receiveInto]
      split
      · rfl
      · exact ih

theorem receive_silent {socketIndex : Nat} {datagrams : List Datagram} (hwait : t.waiting = true)
    (h : t.receive shape sampleRate socketIndex datagrams = some t') : t' = t := by
  unfold receive at h
  split at h
  · exact (Option.some.inj h).symm
  · next socket _ =>
      have hsilent : receiveInto shape sampleRate (!t.waiting) socket datagrams t.rings =
          some t.rings := by
        rw [hwait]
        exact receiveInto_silent socket datagrams t.rings
      rw [hsilent] at h
      exact (Option.some.inj h).symm

/-- While the thread waits, a step changes no ring but one that it connects. -/
theorem step_waiting {e : ReceiverEvent} (hother : ¬e.Connects r)
    (hstep : t.step shape sampleRate e = some t') (hwait : t'.waiting = true) :
    t.waiting = true ∧ t'.rings r = t.rings r := by
  cases e with
  | command c now =>
      obtain ⟨rx, _, hstep⟩ := Option.bind_eq_some_iff.mp hstep
      cases hstep
      exact ⟨hwait, resetRing_other hother⟩
  | readable socketIndex startTime datagrams =>
      have hlooked : (t.lookForStart startTime).waiting = true :=
        (receive_rx hstep).2.symm.trans hwait
      have hsame : t.lookForStart startTime = t := by
        unfold lookForStart at hlooked ⊢
        split at hlooked
        · cases hlooked
        · rfl
      obtain rfl := receive_silent hlooked hstep
      rw [hsame] at hwait ⊢
      exact ⟨hwait, rfl⟩
  | closingTick now =>
      have hwaiting : t.waiting = true := by
        rcases @close_eq shape now t with ⟨ts, _, rings, hclose, _⟩ | ⟨_, hclose⟩
        · obtain rfl := Option.some.inj (hclose.symm.trans hstep)
          exact hwait
        · obtain rfl := Option.some.inj (hclose.symm.trans hstep)
          exact hwait
      have htime : t.tickTime now = none := if_pos hwaiting
      rw [step, close, htime] at hstep
      cases hstep
      exact ⟨hwaiting, rfl⟩

theorem lookForStart_shapes (startTime : Option Clock) (t : ReceiverThread) :
    (t.lookForStart startTime).rx.socketShapes = t.rx.socketShapes := by
  unfold lookForStart
  split
  · funext f
    rw [FlowsReceiver.socketShapes, FlowsReceiver.socketShapes, FlowsReceiver.pickStart_join,
      Option.map_map]
    congr 1
    funext socket
    exact Prod.ext (List.length_map _) rfl
  · rfl

/-- A sink of a slot that a step does not connect was there before, and so was the socket. -/
theorem step_sink_before {e : ReceiverEvent} {i c : Nat} (hprepared : t.Prepared)
    (hfresh : e.Fresh) (hother : ¬e.Connects r) (hstep : t.step shape sampleRate e = some t')
    (hsink : t'.rx.sinkCount r i c ≠ 0) :
    t.rx.sinkCount r i c ≠ 0 ∧ t'.rx.socketShapes i = t.rx.socketShapes i := by
  obtain ⟨_, hsinks⟩ := step_sinks hprepared hfresh hstep r
  have hle := ReceiverEvent.count_le hfresh hother (t.rx.sinks r) i c
  rw [FlowsReceiver.sinkCount_eq, hsinks] at hsink
  refine ⟨by rw [FlowsReceiver.sinkCount_eq]; omega, ?_⟩
  cases e with
  | command cmd now =>
      obtain ⟨rx, hrx, hstep⟩ := Option.bind_eq_some_iff.mp hstep
      cases hstep
      rw [(FlowsReceiver.handle_shapes hrx).1]
      cases cmd with
      | addSocket index socket =>
          rw [ReceiverEvent.afterSinks, RxCommand.afterSinks, SinkView.count_update] at hsink
          split at hsink
          · exact absurd (@RxCommand.Fresh.sinkCount index socket hfresh r c) hsink
          · next hne => exact Function.update_of_ne hne _ _
      | removeSocket index =>
          rw [ReceiverEvent.afterSinks, RxCommand.afterSinks, SinkView.count_update] at hsink
          split at hsink
          · exact absurd rfl hsink
          · next hne => exact Function.update_of_ne hne _ _
      | connectChannel | disconnectChannel => rfl
  | readable socketIndex startTime datagrams => rw [(receive_rx hstep).1, lookForStart_shapes]
  | closingTick now =>
      rcases @close_eq shape now t with ⟨ts, _, rings, hclose, _⟩ | ⟨_, hclose⟩
      · obtain rfl := Option.some.inj (hclose.symm.trans hstep)
        rw [FlowsReceiver.socketShapes, FlowsReceiver.socketShapes]
        dsimp only
        rw [t.rx.closeSilence_sockets ts]
      · obtain rfl := Option.some.inj (hclose.symm.trans hstep)
        rfl

/-- A run that leaves the thread waiting and does not connect the ring: a slot
that has the ring in the end has had it all along, and the ring is as it was. -/
theorem run_waiting {es : List ReceiverEvent} {i c : Nat} (hprepared : t.Prepared)
    (hfresh : ∀ e ∈ es, e.Fresh) (hother : ∀ e ∈ es, ¬e.Connects r)
    (hrun : t.run shape sampleRate es = some t') (hwait : t'.waiting = true)
    (hsink : t'.rx.sinkCount r i c ≠ 0) :
    t.waiting = true ∧ t'.rings r = t.rings r ∧ t.rx.sinkCount r i c ≠ 0 ∧
      t'.rx.socketShapes i = t.rx.socketShapes i := by
  induction es generalizing t with
  | nil =>
      cases hrun
      exact ⟨hwait, rfl, hsink, rfl⟩
  | cons e es ih =>
      rw [run, List.foldlM_cons] at hrun
      obtain ⟨t₁, hstep, hrun⟩ := Option.bind_eq_some_iff.mp hrun
      have hfresh₁ := hfresh e List.mem_cons_self
      have hother₁ := hother e List.mem_cons_self
      obtain ⟨hwait₁, hrings, hsink₁, hshapes⟩ :=
        ih (step_sinks hprepared hfresh₁ hstep r).1
          (fun e he => hfresh e (List.mem_cons_of_mem _ he))
          (fun e he => hother e (List.mem_cons_of_mem _ he)) hrun
      obtain ⟨hwaiting, hring⟩ := step_waiting hother₁ hstep hwait₁
      obtain ⟨hbefore, hshape⟩ := step_sink_before hprepared hfresh₁ hother₁ hstep hsink₁
      exact ⟨hwaiting, hrings.trans hring, hbefore, hshapes.trans hshape⟩

/-! ## A connect -/

/-- A connect that finds the slot, and a sink that is not taken back from a
silence writer: the ring starts at the shifted clock. -/
theorem connect_resets {i c : Nat} {socket : RxSocket} {now : Clock} (ht : t.Timed)
    (hsocket : t.rx.sockets[i]?.join = some socket) (hc : c < socket.channels.length)
    (hnew : ∀ sw ∈ t.rx.silenceWriters, sw.sink ≠ r)
    (hstep : t.step shape sampleRate (.command (.connectChannel i c r) (some now)) = some t') :
    t'.rx.startTimestamp = t.rx.startTimestamp ∧
      t'.rx.socketShapes i = some (socket.channels.length, socket.latencySamples) ∧
      t'.rings r = ((t.rings r).1, (t.rings r).2.reset
        (now + (BitVec.ofNat 64 socket.latencySamples - t.rx.startTimestamp.getD 0))) ∧
      ∃ socket' ch, t'.rx.sockets[i]?.join = some socket' ∧
        socket'.channels[c]?.join = some ch ∧ r ∈ ch.sinks := by
  obtain ⟨rx, hrx, hstep⟩ := Option.bind_eq_some_iff.mp hstep
  cases hstep
  refine ⟨FlowsReceiver.handle_startTimestamp hrx, ?_, ?_, ?_⟩
  · rw [(FlowsReceiver.handle_shapes hrx).1, RxCommand.after, FlowsReceiver.socketShapes, hsocket]
    rfl
  · show FlowsReceiver.resetRing (some now) t.rx t.rings (.connectChannel i c r) r = _
    rw [FlowsReceiver.resetRing.eq_def]
    dsimp only
    rw [hsocket]
    dsimp only
    rw [if_pos ⟨hc, hnew⟩, Function.update_self]
  · cases FlowsReceiver.handled_of_handle hrx with
    | notConnected hmiss => exact absurd (hmiss socket hsocket) (Nat.not_le.mpr hc)
    | @connected _ _ _ socket₁ socket' hsocket₁ _ hpush =>
        obtain ⟨_, ch, hch, hsink⟩ :=
          FlowsReceiver.pushSink_shifted (ht.shifted i socket₁ hsocket₁) hpush
        exact ⟨socket', ch, by dsimp only; rw [join_set (join_lt hsocket), if_pos rfl], hch, hsink⟩

theorem latency_of_shapes {rx : FlowsReceiver} {i n latency : Nat} {socket : RxSocket}
    (hshapes : rx.socketShapes i = some (n, latency))
    (hsocket : rx.sockets[i]?.join = some socket) : socket.latencySamples = latency := by
  rw [FlowsReceiver.socketShapes, hsocket] at hshapes
  exact congrArg Prod.snd (Option.some.inj hshapes)

/-! ## Both orders -/

/-- The states in which both have happened: a connect of the ring at the clock
`now` that reset it, and the start time `T` found, in this order or the other.
`known` says whether the start time was known at the connect. -/
inductive Joined (shape : RingId → RingShared) (sampleRate : BitVec 32) (maxChannels : Nat)
    (rings : RingId → RingState Sample) (i c : Nat) (r : RingId) (now T : Clock) :
    Bool → ReceiverThread → Prop
  | connectLast {before : List ReceiverEvent} {t t' : ReceiverThread} {socket : RxSocket} :
      (∀ e ∈ before, e.Fresh) →
      (start maxChannels true rings).run shape sampleRate before = some t →
      t.rx.startTimestamp = some T →
      t.rx.sockets[i]?.join = some socket → c < socket.channels.length →
      (∀ sw ∈ t.rx.silenceWriters, sw.sink ≠ r) →
      t.step shape sampleRate (.command (.connectChannel i c r) (some now)) = some t' →
      Joined shape sampleRate maxChannels rings i c r now T true t'
  | startLast {before between : List ReceiverEvent} {t t₁ t₂ : ReceiverThread}
      {socket : RxSocket} :
      (∀ e ∈ before ++ between, e.Fresh) →
      (start maxChannels true rings).run shape sampleRate before = some t →
      t.rx.sockets[i]?.join = some socket → c < socket.channels.length →
      (∀ sw ∈ t.rx.silenceWriters, sw.sink ≠ r) →
      t.step shape sampleRate (.command (.connectChannel i c r) (some now)) = some t₁ →
      (∀ e ∈ between, ¬e.Connects r) →
      t₁.run shape sampleRate between = some t₂ → t₂.waiting = true →
      t₂.rx.sinkCount r i c ≠ 0 →
      Joined shape sampleRate maxChannels rings i c r now T false (t₂.lookForStart (some T))

/-- A packet from `ts` on takes the writing position to its shifted end. -/
def Advances (sh : RingShared) (s : RingState Sample) (shift ts : Clock) (xs : List Sample) :
    Prop :=
  ∃ s', RingCall.run sh (.write (ts + shift) xs) s = some s' ∧
    s'.2.writingPos = ts + shift + BitVec.ofNat 64 xs.length

/-- The positions are the shifted clock `now`, and every packet that ends after
`now` advances the writing position. -/
structure InTimeline (sh : RingShared) (now shift : Clock) (s : RingState Sample) : Prop where
  writing : s.2.writingPos = now + shift
  readable : s.2.readablePos = now + shift
  advances : ∀ (ts : Clock) (xs : List Sample), xs.length < sh.itemsSize →
    0 < wrappedDiff (ts + BitVec.ofNat 64 xs.length) now → Advances sh s shift ts xs

theorem advances_iff {sh : RingShared} {s : RingState Sample} {shift ts : Clock}
    {xs : List Sample} (hlen : xs.length < sh.itemsSize) {p : Clock}
    (hpos : s.2.writingPos = p + shift) :
    Advances sh s shift ts xs ↔ 0 ≤ wrappedDiff (ts + BitVec.ofNat 64 xs.length) p := by
  have hend : ts + shift + BitVec.ofNat 64 xs.length =
      ts + BitVec.ofNat 64 xs.length + shift := add_right_comm _ _ _
  have hdiff : wrapsub (ts + BitVec.ofNat 64 xs.length + shift) (p + shift) =
      wrappedDiff (ts + BitVec.ofNat 64 xs.length) p := by
    rw [wrapsub, wrappedDiff, Serial.sdiff, Serial.sdiff, add_sub_add_right_eq_sub]
  have hrun : RingCall.run sh (.write (ts + shift) xs) s =
      some (RingCall.after sh s (.write (ts + shift) xs)) := by
    rw [RingCall.run_eq, if_pos (show RingCall.Short sh (.write (ts + shift) xs) from hlen)]
  have hafter : (RingCall.after sh s (.write (ts + shift) xs)).2.writingPos =
      RBInput.endAt (p + shift) (ts + BitVec.ofNat 64 xs.length + shift) := by
    rw [← hend, ← hpos]
    exact RBInput.wrote_writingPos sh s.1 _ xs s.2
  have hsame : Advances sh s shift ts xs ↔
      RBInput.endAt (p + shift) (ts + BitVec.ofNat 64 xs.length + shift) =
        ts + BitVec.ofNat 64 xs.length + shift := by
    rw [Advances, hrun, ← hafter, hend]
    simp
  rw [hsame, RBInput.endAt, hdiff]
  constructor
  · intro h
    split at h
    · omega
    · rw [← add_right_cancel h, wrappedDiff, Serial.sdiff_self]
  · intro h
    split
    · rfl
    · next hpos =>
        have hzero : wrapsub (ts + BitVec.ofNat 64 xs.length) p = 0 :=
          Int.le_antisymm (Int.not_lt.mp hpos) h
        have hback := offset_wrapsub (ts + BitVec.ofNat 64 xs.length) p
        rw [hzero, offset_zero] at hback
        rw [hback]

/-- Where the ring is, in either order: at the time of the connect, or as far
from it as the start time. -/
theorem Joined.placed {shape : RingId → RingShared} {sampleRate : BitVec 32}
    {maxChannels : Nat} {rings : RingId → RingState Sample} {i c : Nat} {r : RingId}
    {now T : Clock} {known : Bool} {t : ReceiverThread}
    (h : Joined shape sampleRate maxChannels rings i c r now T known t) :
    ∃ socket ch, t.rx.startTimestamp = some T ∧ t.rx.sockets[i]?.join = some socket ∧
      socket.channels[c]?.join = some ch ∧ r ∈ ch.sinks ∧
      ch.timestampShift = BitVec.ofNat 64 socket.latencySamples - T ∧
      (t.rings r).2.writingPos = (now + if known then 0 else T) + ch.timestampShift ∧
      (t.rings r).2.readablePos = (t.rings r).2.writingPos := by
  have hcommand : ReceiverEvent.Fresh (.command (.connectChannel i c r) (some now)) := trivial
  cases h with
  | @connectLast before t t' socket hfresh hbefore hstart hsocket hc hnew hstep =>
      have ht := (timed_start maxChannels true rings).run hfresh hbefore
      obtain ⟨hsame, hshapes, hreset, socket', ch, hsocket', hch, hsink⟩ :=
        connect_resets ht hsocket hc hnew hstep
      have hshift := ((ht.step hcommand hstep).shifted i socket' hsocket' c ch hch).2
      rw [hsame, hstart] at hshift
      have hlatency := latency_of_shapes hshapes hsocket'
      refine ⟨socket', ch, hsame.trans hstart, hsocket', hch, hsink, hshift, ?_, by rw [hreset]; rfl⟩
      rw [hreset, hstart, hshift, hlatency, if_pos rfl, add_zero]
      rfl
  | @startLast before between t t₁ t₂ socket hfresh hbefore hsocket hc hnew hstep hother hrun
      hwait hslot =>
      have hfirst := fun e he => hfresh e (List.mem_append_left between he)
      have hlater := fun e he => hfresh e (List.mem_append_right before he)
      have ht := (timed_start maxChannels true rings).run hfirst hbefore
      have hprepared := run_prepared (prepared_start maxChannels true rings) hfirst hbefore
      have ht₁ := ht.step hcommand hstep
      obtain ⟨hsame, hshapes, hreset, _⟩ := connect_resets ht hsocket hc hnew hstep
      obtain ⟨hwait₁, hrings, _, hshape⟩ := run_waiting (step_sinks hprepared hcommand hstep r).1
        hlater hother hrun hwait hslot
      have hunknown : t.rx.startTimestamp = none := hsame.symm.trans (ht₁.unknown hwait₁)
      obtain ⟨socket₂, ch₂, hsocket₂, hch₂, hsink⟩ := FlowsReceiver.sinkCount_pos_iff.mp hslot
      have hlatency := latency_of_shapes (hshape.trans hshapes) hsocket₂
      have hch := ((ht₁.run hlater hrun).shifted i socket₂ hsocket₂ c ch₂ hch₂).1
      have hlook : t₂.lookForStart (some T) =
          { t₂ with rx := t₂.rx.pickStart T, waiting := false } := by
        rw [lookForStart.eq_def, hwait]
      rw [hlook]
      refine ⟨socket₂.shiftFrom T, ch₂.shiftFrom T, rfl, ?_, ?_, hsink, ?_, ?_, ?_⟩
      · rw [FlowsReceiver.pickStart_join, hsocket₂]
        rfl
      · rw [RxSocket.shiftFrom_join, hch₂]
        rfl
      · exact congrArg (· - T) hch
      · dsimp only
        rw [hrings, hreset, hunknown, RxChannel.shiftFrom, hch, hlatency]
        simp [RingMem.reset]
      · dsimp only
        rw [hrings, hreset]
        rfl

/-- In either order the channel has its shift. The ring's positions are late by
the start time if that was not known at the connect: a packet advances the
writing position exactly if it ends that much later, and the ring is in the
shifted timeline exactly if the start time was known, or is zero. -/
theorem joined_in_timeline_iff {shape : RingId → RingShared} {sampleRate : BitVec 32}
    {maxChannels : Nat} {rings : RingId → RingState Sample} {i c : Nat} {r : RingId}
    {now T : Clock} {known : Bool} {t : ReceiverThread}
    (h : Joined shape sampleRate maxChannels rings i c r now T known t) :
    ∃ socket ch, t.rx.startTimestamp = some T ∧ t.rx.sockets[i]?.join = some socket ∧
      socket.channels[c]?.join = some ch ∧ r ∈ ch.sinks ∧
      ch.timestampShift = BitVec.ofNat 64 socket.latencySamples - T ∧
      (∀ (ts : Clock) (xs : List Sample), xs.length < (shape r).itemsSize →
        (Advances (shape r) (t.rings r) ch.timestampShift ts xs ↔
          0 ≤ wrappedDiff (ts + BitVec.ofNat 64 xs.length) (now + if known then 0 else T))) ∧
      (InTimeline (shape r) now ch.timestampShift (t.rings r) ↔ known = true ∨ T = 0) := by
  obtain ⟨socket, ch, hstart, hsocket, hch, hsink, hshift, hring⟩ := h.placed
  refine ⟨socket, ch, hstart, hsocket, hch, hsink, hshift,
    fun ts xs hlen => advances_iff hlen hring.1, ?_⟩
  constructor
  · intro hin
    cases known with
    | true => exact Or.inl rfl
    | false =>
        have hsame := hring.1.symm.trans hin.writing
        exact Or.inr (by simpa using hsame)
  · intro hknown
    have hzero : (now + if known then 0 else T) = now := by
      rcases hknown with rfl | rfl <;> simp
    rw [hzero] at hring
    exact ⟨hring.1, hring.2.trans hring.1,
      fun ts xs hlen hin => (advances_iff hlen hring.1).mpr (Int.le_of_lt hin)⟩

/-! ## A connect before the start time -/

theorem eightSlots_fit : 8 ≤ 2 ^ 61 := by decide

/-- Every ring has eight slots. -/
def eightSlots : RingId → RingShared := fun _ => ownedShared 8 eightSlots_fit

/-- A flow with one slot and a latency of two samples. -/
def oneSlot : List ReceiverEvent := [.command (.addSocket 0 ⟨false, 2, 2, [none], [[]]⟩) none]

theorem connected_early :
    ((start 1 true fun _ => newOwned 0 0).run eightSlots 48000 oneSlot).bind (fun t =>
      (t.step eightSlots 48000 (.command (.connectChannel 0 0 (.external 0)) (some 100))).map
        fun t₁ => ((t.rx.sockets[0]?.join).map (·.channels.length), t.rx.silenceWriters,
          t₁.waiting, t₁.rx.sinkCount (.external 0) 0 0,
          (t₁.rings (.external 0)).2.writingPos)) =
      some (some 1, [], true, 1, 102) := by
  rfl

/-- The ring is connected at 100, and then the start time 48 is found. -/
theorem joined_early :
    ∃ t, Joined eightSlots 48000 1 (fun _ => newOwned 0 0) 0 0 (.external 0) 100 48 false t ∧
      (t.rings (.external 0)).2.writingPos = 102 := by
  obtain ⟨t, hbefore, hconnected⟩ := Option.bind_eq_some_iff.mp connected_early
  obtain ⟨t₁, hstep, hconnected⟩ := Option.map_eq_some_iff.mp hconnected
  simp only [Prod.mk.injEq] at hconnected
  obtain ⟨hslots, hwriters, hwait, hsink, hwriting⟩ := hconnected
  obtain ⟨socket, hsocket, hlen⟩ := Option.map_eq_some_iff.mp hslots
  have hfresh : ∀ e ∈ oneSlot ++ [], e.Fresh := by
    simp [oneSlot, ReceiverEvent.Fresh, RxCommand.Fresh, RxSocket.Prepared]
  refine ⟨t₁.lookForStart (some 48), .startLast hfresh hbefore hsocket (by omega)
    (by simp [hwriters]) hstep (by simp) rfl hwait (by simp [hsink]), ?_⟩
  rw [(lookForStart_rest (some 48) t₁).2]
  exact hwriting

theorem joined_in_timeline_iff_early :
    ∃ t, Joined eightSlots 48000 1 (fun _ => newOwned 0 0) 0 0 (.external 0) 100 48 false t ∧
      ∃ socket ch, t.rx.startTimestamp = some 48 ∧ t.rx.sockets[0]?.join = some socket ∧
        socket.channels[0]?.join = some ch ∧ .external 0 ∈ ch.sinks ∧
        ch.timestampShift = BitVec.ofNat 64 socket.latencySamples - 48 ∧
        (∀ (ts : Clock) (xs : List Sample), xs.length < (eightSlots (.external 0)).itemsSize →
          (Advances (eightSlots (.external 0)) (t.rings (.external 0)) ch.timestampShift ts xs ↔
            0 ≤ wrappedDiff (ts + BitVec.ofNat 64 xs.length)
              (100 + if false = true then 0 else 48))) ∧
        (InTimeline (eightSlots (.external 0)) 100 ch.timestampShift (t.rings (.external 0)) ↔
          false = true ∨ (48 : Clock) = 0) := by
  obtain ⟨t, h, _⟩ := joined_early
  exact ⟨t, h, joined_in_timeline_iff h⟩

/-- The ring is late by the start time: a packet of two samples from 101 on is in
time and moves nothing. -/
theorem early_ring_late :
    ∃ t, Joined eightSlots 48000 1 (fun _ => newOwned 0 0) 0 0 (.external 0) 100 48 false t ∧
      ¬InTimeline (eightSlots (.external 0)) 100 (2 - 48) (t.rings (.external 0)) ∧
      0 < wrappedDiff (101 + BitVec.ofNat 64 [1, 1].length) 100 ∧
      ¬Advances (eightSlots (.external 0)) (t.rings (.external 0)) (2 - 48) 101 [1, 1] := by
  obtain ⟨t, h, hwriting⟩ := joined_early
  have hlate : ¬Advances (eightSlots (.external 0)) (t.rings (.external 0)) (2 - 48) 101 [1, 1] := by
    rw [advances_iff (p := 148) (by decide) (by rw [hwriting]; rfl)]
    decide
  refine ⟨t, h, fun hin => ?_, by decide, hlate⟩
  exact hlate (hin.advances 101 [1, 1] (by decide) (by decide))

end ReceiverThread

end Inferno
