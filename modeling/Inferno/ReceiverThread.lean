import Inferno.AudioSinks
import Inferno.RingLate

/-!
# The receiving thread and its rings

`FlowsReceiverInternal::run` with what it does to the rings: a connect resets
the ring of its sink, a packet is written to the sinks of its channels, a
closing tick closes all rings up to the clock. As long as the thread waits for
its start time, packets are thrown away and there are no closing ticks; the
first packet after the start time is known makes the thread look at it
(`lookForStart`). A panic is `none`.

A packet touches the rings of the sinks of its socket (`receiveInto_other`), a
closing tick those of all sinks and silence writers (`close_eq`), and which
rings are sinks is changed by commands alone (`step_sinks`). Of `receive`, the
statistics are left out here, see `Wire`.
-/

namespace Inferno

/-! ## The thread -/

/-- `start_timestamp` is in the tables; `waiting` is `start_time_rx.is_some()`. -/
structure ReceiverThread where
  rx : FlowsReceiver
  waiting : Bool
  rings : RingId → RingState Sample

/-- What wakes the thread. The start time is what `try_recv` would find, the
clocks are what the media clock would say. -/
inductive ReceiverEvent where
  | command (c : RxCommand) (now : Option Clock)
  | readable (socketIndex : Nat) (startTime : Option Clock) (datagrams : List Datagram)
  | closingTick (now : Option Clock)

def RxChannel.shiftFrom (startTime : Clock) (ch : RxChannel RingId) : RxChannel RingId :=
  { ch with timestampShift := ch.latencySamples - startTime }

def RxSocket.shiftFrom (startTime : Clock) (socket : RxSocket) : RxSocket :=
  { socket with channels := socket.channels.map (Option.map (RxChannel.shiftFrom startTime)) }

namespace FlowsReceiver

/-- The start time is found: the channels there are get their shift. -/
def pickStart (rx : FlowsReceiver) (startTime : Clock) : FlowsReceiver :=
  { rx with
    startTimestamp := some startTime
    sockets := rx.sockets.map (Option.map (RxSocket.shiftFrom startTime)) }

/-- `sink.shared().reset(now.wrapping_add_signed(timestamp_shift))`, unless the
sink is taken back from a silence writer. -/
def resetRing (now : Option Clock) (rx : FlowsReceiver) (rings : RingId → RingState Sample) :
    RxCommand → RingId → RingState Sample
  | .connectChannel socketIndex channelInFlow sink =>
      match rx.sockets[socketIndex]?.join, now with
      | some socket, some now =>
          if channelInFlow < socket.channels.length ∧ ∀ sw ∈ rx.silenceWriters, sw.sink ≠ sink then
            let shift := BitVec.ofNat 64 socket.latencySamples - rx.startTimestamp.getD 0
            Function.update rings sink ((rings sink).1, (rings sink).2.reset (now + shift))
          else rings
      | _, _ => rings
  | .addSocket .. | .removeSocket .. | .disconnectChannel .. => rings

/-- The sinks of all channels. -/
def sinkIds (rx : FlowsReceiver) : List RingId :=
  rx.sockets.flatMap fun socket => socket.toList.flatMap fun socket =>
    socket.channels.flatMap fun ch => ch.toList.flatMap fun ch => ch.sinks

end FlowsReceiver

/-- A call of one ring's writer. -/
def callRing (shape : RingId → RingShared) (rings : RingId → RingState Sample) (r : RingId)
    (c : RingCall Sample) : Option (RingId → RingState Sample) :=
  (c.run (shape r) (rings r)).map (Function.update rings r)

def writeSinks (shape : RingId → RingShared) (rings : RingId → RingState Sample)
    (calls : List (SinkWrite RingId)) : Option (RingId → RingState Sample) :=
  calls.foldlM (fun rings c => callRing shape rings c.sink (.write c.startTimestamp c.items)) rings

def closeRings (shape : RingId → RingShared) (ts : Clock) (rings : RingId → RingState Sample)
    (ids : List RingId) : Option (RingId → RingState Sample) :=
  ids.foldlM (fun rings r => callRing shape rings r (.close ts)) rings

/-- `if write`: the samples of a datagram. -/
def writeDatagram (shape : RingId → RingShared) (sampleRate : BitVec 32) (write : Bool)
    (socket : RxSocket) (d : Datagram) (rings : RingId → RingState Sample) :
    Option (RingId → RingState Sample) :=
  if write then do
    let calls ← sinkWrites socket.bytesPerSample socket.channels
      (headerTimestamp sampleRate d.buf) d.buf d.recvSize
    writeSinks shape rings calls
  else some rings

/-- `receive`, up to the first datagram that is too small. -/
def receiveInto (shape : RingId → RingShared) (sampleRate : BitVec 32) (write : Bool)
    (socket : RxSocket) :
    List Datagram → (RingId → RingState Sample) → Option (RingId → RingState Sample)
  | [], rings => some rings
  | d :: ds, rings =>
      if d.recvSize < 9 then some rings
      else do
        let rings ← writeDatagram shape sampleRate write socket d rings
        receiveInto shape sampleRate write socket ds rings

namespace ReceiverThread

/-- A thread for external buffers waits for its start time. -/
def start (maxChannels : Nat) (waiting : Bool) (rings : RingId → RingState Sample) :
    ReceiverThread :=
  ⟨.start maxChannels none, waiting, rings⟩

/-- `rx.try_recv()`, and `start_time_rx = None` once it has answered. -/
def lookForStart (startTime : Option Clock) (t : ReceiverThread) : ReceiverThread :=
  match t.waiting, startTime with
  | true, some startTime => { t with rx := t.rx.pickStart startTime, waiting := false }
  | _, _ => t

/-- The datagrams of a socket; nothing is written while the thread waits. -/
def receive (shape : RingId → RingShared) (sampleRate : BitVec 32) (socketIndex : Nat)
    (datagrams : List Datagram) (t : ReceiverThread) : Option ReceiverThread :=
  match t.rx.sockets[socketIndex]?.join with
  | none => some t
  | some socket => do
      let rings ← receiveInto shape sampleRate (!t.waiting) socket datagrams t.rings
      some { t with rings := rings }

/-- `ts` of a closing tick, if there is one. -/
def tickTime (now : Option Clock) (t : ReceiverThread) : Option Clock :=
  if t.waiting then none else now.map (· - t.rx.startTimestamp.getD 0)

def close (shape : RingId → RingShared) (now : Option Clock) (t : ReceiverThread) :
    Option ReceiverThread :=
  match t.tickTime now with
  | none => some t
  | some ts => do
      let rings ← closeRings shape ts t.rings
        (t.rx.sinkIds ++ t.rx.silenceWriters.map SilenceWriter.sink)
      some { t with rx := t.rx.closeSilence ts, rings := rings }

def step (shape : RingId → RingShared) (sampleRate : BitVec 32) (t : ReceiverThread) :
    ReceiverEvent → Option ReceiverThread
  | .command c now => do
      let rx ← t.rx.handle now (fun r => (shape r).itemsSize) c
      some { t with rx := rx, rings := t.rx.resetRing now t.rings c }
  | .readable socketIndex startTime datagrams =>
      (t.lookForStart startTime).receive shape sampleRate socketIndex datagrams
  | .closingTick now => t.close shape now

def run (shape : RingId → RingShared) (sampleRate : BitVec 32) (t : ReceiverThread)
    (es : List ReceiverEvent) : Option ReceiverThread :=
  es.foldlM (step shape sampleRate) t

end ReceiverThread

/-! ## Rings that are left alone -/

section

variable {shape : RingId → RingShared} {rings rings' : RingId → RingState Sample} {r : RingId}

theorem callRing_other {r' : RingId} {c : RingCall Sample} (hne : r ≠ r')
    (h : callRing shape rings r' c = some rings') : rings' r = rings r := by
  obtain ⟨s, _, rfl⟩ := Option.map_eq_some_iff.mp h
  exact Function.update_of_ne hne _ _

theorem writeSinks_other {calls : List (SinkWrite RingId)} (hne : ∀ c ∈ calls, c.sink ≠ r)
    (h : writeSinks shape rings calls = some rings') : rings' r = rings r := by
  induction calls generalizing rings with
  | nil =>
      cases h
      rfl
  | cons c calls ih =>
      rw [writeSinks, List.foldlM_cons] at h
      obtain ⟨rings₁, hcall, h⟩ := Option.bind_eq_some_iff.mp h
      rw [ih (fun c hc => hne c (List.mem_cons_of_mem _ hc)) h]
      exact callRing_other (hne c List.mem_cons_self).symm hcall

/-- The sinks that are written are those of the channels. -/
theorem sink_of_sinkWrites {bytesPerSample : Nat} {channels : List (Option (RxChannel RingId))}
    {ts : Clock} {buf : Nat → Byte} {size : Nat} {calls : List (SinkWrite RingId)}
    (h : sinkWrites bytesPerSample channels ts buf size = some calls) :
    ∀ c ∈ calls, ∃ ch, some ch ∈ channels ∧ c.sink ∈ ch.sinks := by
  intro c hc
  unfold sinkWrites at h
  dsimp only at h
  split at h
  · cases h
  · split at h
    · cases h
      obtain ⟨⟨o, i⟩, hmem, hc⟩ := List.mem_flatMap.mp hc
      cases o with
      | none => cases hc
      | some ch =>
          obtain ⟨sink, hsink, rfl⟩ := List.mem_map.mp hc
          exact ⟨ch, List.fst_mem_of_mem_zipIdx hmem, hsink⟩
    · split at h
      · cases h
        cases hc
      · cases h

theorem receiveInto_other {sampleRate : BitVec 32} {write : Bool} {socket : RxSocket}
    {ds : List Datagram} (hne : ∀ ch, some ch ∈ socket.channels → r ∉ ch.sinks)
    (h : receiveInto shape sampleRate write socket ds rings = some rings') :
    rings' r = rings r := by
  induction ds generalizing rings with
  | nil =>
      cases h
      rfl
  | cons d ds ih =>
      rw [receiveInto] at h
      split at h
      · cases h
        rfl
      · obtain ⟨rings₁, hwrite, h⟩ := Option.bind_eq_some_iff.mp h
        rw [ih h]
        unfold writeDatagram at hwrite
        split at hwrite
        · obtain ⟨calls, hcalls, hwrite⟩ := Option.bind_eq_some_iff.mp hwrite
          refine writeSinks_other (fun c hc heq => ?_) hwrite
          obtain ⟨ch, hch, hsink⟩ := sink_of_sinkWrites hcalls c hc
          exact hne ch hch (heq ▸ hsink)
        · cases hwrite
          rfl

/-- A close always comes to its end; the rings that are listed are closed, each
as often as it is listed. -/
theorem closeRings_eq (ts : Clock) (rings : RingId → RingState Sample) (ids : List RingId) :
    ∃ rings', closeRings shape ts rings ids = some rings' ∧
      ∀ r, rings' r = (fun s => RingCall.after (shape r) s (.close ts))^[ids.count r] (rings r) := by
  induction ids generalizing rings with
  | nil => exact ⟨rings, rfl, fun r => rfl⟩
  | cons i ids ih =>
      obtain ⟨rings', hrest, hall⟩ :=
        ih (Function.update rings i (RingCall.after (shape i) (rings i) (.close ts)))
      refine ⟨rings', ?_, fun r => ?_⟩
      · have hcall : callRing shape rings i (.close ts) =
            some (Function.update rings i (RingCall.after (shape i) (rings i) (.close ts))) := by
          rw [callRing, RingCall.run_eq, if_pos (show RingCall.Short _ (.close ts) from trivial)]
          rfl
        rw [closeRings, List.foldlM_cons, hcall]
        exact hrest
      · rw [hall, List.count_cons]
        by_cases hi : i = r
        · rw [hi, Function.update_self, beq_self_eq_true, if_pos rfl, Function.iterate_succ_apply]
        · rw [Function.update_of_ne (Ne.symm hi), if_neg (by simpa using hi), Nat.add_zero]

end

/-! ## Sockets as they are added -/

/-- A socket is added without sinks. -/
def RxCommand.Fresh : RxCommand → Prop
  | .addSocket _ socket => (∀ o ∈ socket.channels, o = none) ∧ socket.Prepared
  | .removeSocket _ | .connectChannel .. | .disconnectChannel .. => True

theorem RxCommand.Fresh.prepared {c : RxCommand} (h : c.Fresh) : c.Prepared := by
  cases c with
  | addSocket index socket => exact h.2
  | removeSocket | connectChannel | disconnectChannel => trivial

/-- A socket is as `add_socket` makes it. -/
def RxCommand.Built : RxCommand → Prop
  | .addSocket _ socket => ∃ channelsCount, socket.channels = List.replicate channelsCount none ∧
      socket.emptySinksVecs = List.replicate channelsCount []
  | .removeSocket _ | .connectChannel .. | .disconnectChannel .. => True

theorem RxCommand.Built.fresh {c : RxCommand} (h : c.Built) : c.Fresh := by
  cases c with
  | addSocket index socket =>
      rcases h with ⟨channelsCount, hchannels, hvecs⟩
      refine ⟨fun o ho => ?_, fun v hv => ?_⟩
      · exact List.eq_of_mem_replicate (hchannels ▸ ho)
      · exact List.eq_of_mem_replicate (hvecs ▸ hv)
  | removeSocket | connectChannel | disconnectChannel => trivial

/-- The commands that `add_socket` sends. -/
theorem FlowsReceiver.addSocket_built (rx : FlowsReceiver) (localIndex : Nat)
    (sendKeepalives : Bool) (bytesPerSample channelsCount latencySamples : Nat) :
    ∀ c ∈ (rx.addSocket localIndex sendKeepalives bytesPerSample channelsCount
      latencySamples).commands, c ∈ rx.commands ∨ c.Built := by
  intro c hc
  unfold FlowsReceiver.addSocket at hc
  split at hc
  · exact Or.inl hc
  · rcases List.mem_append.mp hc with hc | hc
    · exact Or.inl hc
    · obtain rfl := List.mem_singleton.mp hc
      exact Or.inr ⟨channelsCount, rfl, rfl⟩

/-- What `add_socket` sends is fresh. -/
theorem FlowsReceiver.addSocket_fresh (rx : FlowsReceiver) (localIndex : Nat)
    (sendKeepalives : Bool) (bytesPerSample channelsCount latencySamples : Nat) :
    ∀ c ∈ (rx.addSocket localIndex sendKeepalives bytesPerSample channelsCount
      latencySamples).commands, c ∈ rx.commands ∨ c.Fresh := fun c hc =>
  (rx.addSocket_built localIndex sendKeepalives bytesPerSample channelsCount latencySamples c
    hc).imp_right RxCommand.Built.fresh

def ReceiverEvent.Fresh : ReceiverEvent → Prop
  | .command c _ => c.Fresh
  | .readable .. | .closingTick _ => True

/-- The event connects the ring. -/
def ReceiverEvent.Connects (r : RingId) : ReceiverEvent → Prop
  | .command (.connectChannel _ _ sink) _ => sink = r
  | .command (.addSocket ..) _ | .command (.removeSocket _) _ | .command (.disconnectChannel ..) _
  | .readable .. | .closingTick _ => False

/-- What an event makes of the view of a ring. -/
def ReceiverEvent.afterSinks (r : RingId) (v : SinkView) : ReceiverEvent → SinkView
  | .command c _ => c.afterSinks r v
  | .readable .. | .closingTick _ => v

theorem FlowsReceiver.pickStart_join (rx : FlowsReceiver) (startTime : Clock) (f : Nat) :
    (rx.pickStart startTime).sockets[f]?.join =
      (rx.sockets[f]?.join).map (RxSocket.shiftFrom startTime) := by
  rw [pickStart]
  dsimp only
  rw [List.getElem?_map]
  rcases rx.sockets[f]? with _ | _ | socket <;> rfl

theorem RxSocket.shiftFrom_sinkCount (startTime : Clock) (socket : RxSocket) (r : RingId) :
    (socket.shiftFrom startTime).sinkCount r = socket.sinkCount r := by
  funext c
  rw [RxSocket.sinkCount, RxSocket.sinkCount, RxSocket.shiftFrom]
  dsimp only
  rw [List.getElem?_map]
  rcases socket.channels[c]? with _ | _ | ch <;> rfl

theorem FlowsReceiver.closeSilence_sockets (rx : FlowsReceiver) (ts : Clock) :
    (rx.closeSilence ts).sockets = rx.sockets := by
  unfold closeSilence
  split <;> rfl

namespace ReceiverThread

variable {shape : RingId → RingShared} {sampleRate : BitVec 32} {t t' : ReceiverThread}
  {r : RingId}

/-- The vectors of sinks that are prepared are empty. -/
def Prepared (t : ReceiverThread) : Prop :=
  ∀ (f : Nat) socket, t.rx.sockets[f]?.join = some socket → socket.Prepared

theorem lookForStart_sinks (startTime : Option Clock) (t : ReceiverThread) (r : RingId) :
    (t.lookForStart startTime).rx.sinks r = t.rx.sinks r := by
  unfold lookForStart
  split
  · funext f
    rw [FlowsReceiver.sinks, FlowsReceiver.sinks, FlowsReceiver.pickStart_join, Option.map_map]
    congr 1
    funext socket
    exact Prod.ext (List.length_map _) (socket.shiftFrom_sinkCount _ r)
  · rfl

theorem Prepared.lookForStart (h : t.Prepared) (startTime : Option Clock) :
    (t.lookForStart startTime).Prepared := by
  unfold ReceiverThread.lookForStart
  split
  · intro f socket hsocket
    rw [FlowsReceiver.pickStart_join] at hsocket
    obtain ⟨socket, hold, rfl⟩ := Option.map_eq_some_iff.mp hsocket
    exact h f socket hold
  · exact h

theorem receive_rx {socketIndex : Nat} {datagrams : List Datagram}
    (h : t.receive shape sampleRate socketIndex datagrams = some t') :
    t'.rx = t.rx ∧ t'.waiting = t.waiting := by
  unfold receive at h
  split at h
  · cases h
    exact ⟨rfl, rfl⟩
  · obtain ⟨rings, _, h⟩ := Option.bind_eq_some_iff.mp h
    cases h
    exact ⟨rfl, rfl⟩

/-- What a closing tick does. -/
theorem close_eq (now : Option Clock) (t : ReceiverThread) :
    (∃ ts, t.tickTime now = some ts ∧ ∃ rings, t.close shape now =
        some { t with rx := t.rx.closeSilence ts, rings := rings } ∧
      ∀ r, rings r = (fun s => RingCall.after (shape r) s (.close ts))^[
        (t.rx.sinkIds ++ t.rx.silenceWriters.map SilenceWriter.sink).count r] (t.rings r)) ∨
    (t.tickTime now = none ∧ t.close shape now = some t) := by
  unfold close
  cases t.tickTime now with
  | none => exact Or.inr ⟨rfl, rfl⟩
  | some ts =>
      obtain ⟨rings, hclose, hall⟩ := @closeRings_eq shape ts t.rings
        (t.rx.sinkIds ++ t.rx.silenceWriters.map SilenceWriter.sink)
      refine Or.inl ⟨ts, rfl, rings, ?_, hall⟩
      dsimp only
      rw [hclose]
      rfl

/-- What a step does to the view of a ring. -/
theorem step_sinks {e : ReceiverEvent} (hprepared : t.Prepared) (hfresh : e.Fresh)
    (h : t.step shape sampleRate e = some t') (r : RingId) :
    t'.Prepared ∧ t'.rx.sinks r = e.afterSinks r (t.rx.sinks r) := by
  cases e with
  | command c now =>
      obtain ⟨rx, hrx, h⟩ := Option.bind_eq_some_iff.mp h
      cases h
      exact FlowsReceiver.handle_sinks hprepared hfresh.prepared hrx
  | readable socketIndex startTime datagrams =>
      obtain ⟨hrx, _⟩ := receive_rx h
      refine ⟨?_, ?_⟩
      · rw [Prepared, hrx]
        exact hprepared.lookForStart startTime
      · rw [hrx]
        exact lookForStart_sinks startTime t r
  | closingTick now =>
      rcases @close_eq shape now t with ⟨ts, _, rings, hclose, _⟩ | ⟨_, hclose⟩
      · obtain rfl := Option.some.inj (hclose.symm.trans h)
        have hsockets := t.rx.closeSilence_sockets ts
        refine ⟨?_, ?_⟩
        · rw [Prepared, hsockets]
          exact hprepared
        · funext f
          rw [FlowsReceiver.sinks, hsockets]
          rfl
      · obtain rfl := Option.some.inj (hclose.symm.trans h)
        exact ⟨hprepared, rfl⟩

theorem prepared_start (maxChannels : Nat) (waiting : Bool)
    (rings : RingId → RingState Sample) : (start maxChannels waiting rings).Prepared := by
  intro f socket hsocket
  rw [start, FlowsReceiver.start] at hsocket
  simp only [List.getElem?_replicate] at hsocket
  split at hsocket <;> cases hsocket

theorem run_prepared {es : List ReceiverEvent} (hprepared : t.Prepared)
    (hfresh : ∀ e ∈ es, e.Fresh) (h : t.run shape sampleRate es = some t') : t'.Prepared :=
  Partial.foldlM_inv (fun _ _ _ he hp hstep => (step_sinks hp (hfresh _ he) hstep (.external 0)).1)
    hprepared h

end ReceiverThread

/-! ## Rings that are no sinks -/

theorem FlowsReceiver.mem_sinkIds {rx : FlowsReceiver} {r : RingId} {f c : Nat}
    {socket : RxSocket} {ch : RxChannel RingId} (hsocket : rx.sockets[f]?.join = some socket)
    (hch : socket.channels[c]?.join = some ch) (hr : r ∈ ch.sinks) : r ∈ rx.sinkIds := by
  refine List.mem_flatMap.mpr ⟨some socket,
    List.mem_of_getElem? (Option.join_eq_some_iff.mp hsocket), ?_⟩
  refine List.mem_flatMap.mpr ⟨socket, by simp, ?_⟩
  refine List.mem_flatMap.mpr ⟨some ch, List.mem_of_getElem? (Option.join_eq_some_iff.mp hch), ?_⟩
  exact List.mem_flatMap.mpr ⟨ch, by simp, hr⟩

theorem FlowsReceiver.sinkCount_pos_iff {rx : FlowsReceiver} {r : RingId} {f c : Nat} :
    rx.sinkCount r f c ≠ 0 ↔ ∃ socket ch, rx.sockets[f]?.join = some socket ∧
      socket.channels[c]?.join = some ch ∧ r ∈ ch.sinks := by
  rw [sinkCount]
  cases hsocket : rx.sockets[f]?.join with
  | none => simp
  | some socket =>
      simp only [RxSocket.sinkCount]
      cases hch : socket.channels[c]?.join with
      | none => simp [hch]
      | some ch => simp [hch, List.count_eq_zero]

theorem FlowsReceiver.mem_sinkIds_iff (rx : FlowsReceiver) (r : RingId) :
    r ∈ rx.sinkIds ↔ ∃ f c, rx.sinkCount r f c ≠ 0 := by
  constructor
  · intro h
    obtain ⟨o, ho, h⟩ := List.mem_flatMap.mp h
    obtain ⟨socket, hsocket, h⟩ := List.mem_flatMap.mp h
    obtain ⟨och, hch, h⟩ := List.mem_flatMap.mp h
    obtain ⟨ch, hch', h⟩ := List.mem_flatMap.mp h
    obtain rfl := Option.mem_toList.mp hsocket
    obtain rfl := Option.mem_toList.mp hch'
    obtain ⟨f, hf⟩ := List.mem_iff_getElem?.mp ho
    obtain ⟨c, hc⟩ := List.mem_iff_getElem?.mp hch
    exact ⟨f, c, sinkCount_pos_iff.mpr ⟨socket, ch, by rw [hf]; rfl, by rw [hc]; rfl,
      by simpa using h⟩⟩
  · rintro ⟨f, c, hpos⟩
    obtain ⟨socket, ch, hsocket, hch, hr⟩ := sinkCount_pos_iff.mp hpos
    exact mem_sinkIds hsocket hch hr

/-- The ring is not among the sinks. -/
def FlowsReceiver.Unsunk (rx : FlowsReceiver) (r : RingId) : Prop :=
  ∀ f c, rx.sinkCount r f c = 0

theorem FlowsReceiver.unsunk_iff (rx : FlowsReceiver) (r : RingId) :
    rx.Unsunk r ↔ r ∉ rx.sinkIds := by
  rw [mem_sinkIds_iff]
  simp [Unsunk]

/-- How often the ring is among the sinks of a slot. -/
def SinkView.count (v : SinkView) (f c : Nat) : Nat := ((v f).map fun x => x.2 c).getD 0

theorem FlowsReceiver.sinkCount_eq (rx : FlowsReceiver) (r : RingId) (f c : Nat) :
    rx.sinkCount r f c = (rx.sinks r).count f c := by
  rw [sinkCount, SinkView.count, sinks]
  cases rx.sockets[f]?.join <;> rfl

theorem SinkView.count_update (v : SinkView) (i : Nat) (o : Option (Nat × (Nat → Nat)))
    (f c : Nat) : SinkView.count (Function.update v i o) f c =
      if f = i then (o.map fun x => x.2 c).getD 0 else v.count f c := by
  rw [count]
  split
  · next h => rw [h, Function.update_self]
  · next h => rw [Function.update_of_ne h, count]

/-- A socket that is added has the ring nowhere. -/
theorem RxCommand.Fresh.sinkCount {index : Nat} {socket : RxSocket}
    (h : (RxCommand.addSocket index socket).Fresh) (r : RingId) (c : Nat) :
    socket.sinkCount r c = 0 := by
  rw [RxSocket.sinkCount]
  split
  · rfl
  · next ch hch => cases h.1 _ (List.mem_of_getElem? (Option.join_eq_some_iff.mp hch))

/-- An event that does not connect the ring adds it nowhere. -/
theorem ReceiverEvent.count_le {e : ReceiverEvent} {r : RingId} (hfresh : e.Fresh)
    (hother : ¬e.Connects r) (v : SinkView) (f c : Nat) :
    (e.afterSinks r v).count f c ≤ v.count f c := by
  cases e with
  | readable | closingTick => exact Nat.le_refl _
  | command cmd now =>
      cases cmd with
      | addSocket index socket =>
          rw [afterSinks, RxCommand.afterSinks, SinkView.count_update]
          split
          · exact (@RxCommand.Fresh.sinkCount index socket hfresh r c).le.trans (Nat.zero_le _)
          · exact Nat.le_refl _
      | removeSocket index =>
          rw [afterSinks, RxCommand.afterSinks, SinkView.count_update]
          split
          · exact Nat.zero_le _
          · exact Nat.le_refl _
      | connectChannel index c' sink =>
          have hsink : sink ≠ r := hother
          rw [afterSinks, RxCommand.afterSinks,
            FlowsReceiver.recount_same fun x _ => if_neg fun h => hsink h.1]
      | disconnectChannel index c' rbShared =>
          rw [afterSinks, RxCommand.afterSinks, SinkView.recount, SinkView.count_update]
          split
          · next hf =>
              rw [SinkView.count, hf]
              cases v index with
              | none => exact Nat.le_refl _
              | some x =>
                  show (if rbShared = r then Function.update x.2 c' (x.2 c' - 1) else x.2) c ≤ x.2 c
                  split
                  · by_cases hc : c = c'
                    · rw [hc, Function.update_self]
                      exact Nat.sub_le _ _
                    · rw [Function.update_of_ne hc]
                  · exact Nat.le_refl _
          · exact Nat.le_refl _

theorem ReceiverEvent.unsunk {e : ReceiverEvent} {rx rx' : FlowsReceiver} {r : RingId}
    (hfresh : e.Fresh) (hother : ¬e.Connects r)
    (hsinks : rx'.sinks r = e.afterSinks r (rx.sinks r)) (hun : rx.Unsunk r) : rx'.Unsunk r := by
  intro f c
  have hle := count_le hfresh hother (rx.sinks r) f c
  rw [← hsinks, ← FlowsReceiver.sinkCount_eq, ← FlowsReceiver.sinkCount_eq, hun f c] at hle
  exact Nat.le_zero.mp hle

namespace ReceiverThread

variable {shape : RingId → RingShared} {sampleRate : BitVec 32} {t t' : ReceiverThread}
  {r : RingId}

theorem resetRing_other {now : Option Clock} {rx : FlowsReceiver}
    {rings : RingId → RingState Sample} {c : RxCommand}
    (hother : ¬(ReceiverEvent.command c now).Connects r) :
    rx.resetRing now rings c r = rings r := by
  cases c with
  | addSocket | removeSocket | disconnectChannel => rfl
  | connectChannel index c sink =>
      have hne : r ≠ sink := Ne.symm hother
      rw [FlowsReceiver.resetRing.eq_def]
      dsimp only
      cases rx.sockets[index]?.join with
      | none => rfl
      | some socket =>
          cases now with
          | none => rfl
          | some now =>
              dsimp only
              split
              · exact Function.update_of_ne hne _ _
              · rfl

theorem receive_other {socketIndex : Nat} {datagrams : List Datagram} (hun : t.rx.Unsunk r)
    (h : t.receive shape sampleRate socketIndex datagrams = some t') : t'.rings r = t.rings r := by
  unfold receive at h
  split at h
  · cases h
    rfl
  · next socket hsocket =>
      obtain ⟨rings, hrings, h⟩ := Option.bind_eq_some_iff.mp h
      cases h
      refine receiveInto_other (fun ch hch hr => ?_) hrings
      obtain ⟨c, hc⟩ := List.mem_iff_getElem?.mp hch
      exact (t.rx.unsunk_iff r).mp hun
        (FlowsReceiver.mem_sinkIds hsocket (by rw [hc]; rfl) hr)

theorem lookForStart_rest (startTime : Option Clock) (t : ReceiverThread) :
    (t.lookForStart startTime).rx.silenceWriters = t.rx.silenceWriters ∧
      (t.lookForStart startTime).rings = t.rings := by
  unfold lookForStart
  split <;> exact ⟨rfl, rfl⟩

end ReceiverThread

end Inferno
