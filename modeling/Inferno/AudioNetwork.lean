import Inferno.CollectorAudio
import Inferno.ReceiverStart
import Inferno.RingTells
import Inferno.TxCarriage

/-!
# Audio across the network

Devices push samples and transmit packets, the network loses, repeats, delays and
reorders them, and a receiver with rings of its own writes what arrives. Its collector
reads the rings and calls the application.

Whatever happens, the application gets silence, or what was pushed to the channel for a
time that is always the same before its own (`heard_was_pushed`): no sample comes at
another time, or from another channel than its packet said. The calls must fit the
rings, and the sockets must be for the packets that come to them.
-/

namespace Inferno

open Function Interleave

/-! ## The network -/

/-- The devices, and what the receiver and its rings are created with. -/
structure AudioSetup (D : Type) where
  config : D → TxConfig
  channels : D → Nat
  startTimestamp : D → Clock
  flags : D → Flag → Bool
  ditherRng : D → DitherRng
  sampleRate : BitVec 32
  maxChannels : Nat
  bufferLength : Nat
  bufferLength_le : bufferLength ≤ 2 ^ 61
  holeFixWait : Usize
  holeFixWait_le : holeFixWait.toNat ≤ 2 ^ 62
  ringStart : Nat → Clock

/-- The slot that a ring is connected to: whose packets its socket is bound for, and the
latency of the socket. -/
structure Join where
  addr : SocketAddr
  slot : Nat
  latencySamples : Nat
deriving DecidableEq

/-- What the callback was called with, and the rings the channels were read from. -/
structure Playback where
  sources : List (Option Nat)
  delivery : Delivery

structure AudioNet (D : Type) where
  tx : D → TxSystem
  pushed : D → Nat → List Sample
  sent : List (D × TxPacket)
  rx : ReceiverThread
  bound : Nat → Option SocketAddr
  joined : RingId → Option Join
  collector : Collector
  played : List Playback

/-- What happens next. A socket is bound to `addr` when it is added; `packets` are the
numbers of the packets that arrive at a socket, as often and in the order they do. -/
inductive AudioNetEvent (D : Type) where
  | tx (d : D) (a : TxAction)
  | command (c : RxCommand) (addr : SocketAddr) (now : Option Clock)
  | arrive (socketIndex : Nat) (packets : List Nat)
  | closingTick (now : Option Clock)
  | collect (c : CollectorCommand)
  | tick

namespace AudioSetup

variable {D : Type}

/-- The ring that `new_owned` made as the `k`-th. -/
def ring (setup : AudioSetup D) (k : Nat) : RingId := .owned k (setup.ringStart k)

/-- All the rings are made alike. -/
def shape (setup : AudioSetup D) (_ : RingId) : RingShared :=
  ownedShared setup.bufferLength setup.bufferLength_le

end AudioSetup

/-- `start_time` of a ring. -/
def RingId.startTime : RingId → Clock
  | .owned _ startTime => startTime
  | .external _ => 0

/-- The datagram of a packet; the statistics are left out here. -/
def TxPacket.datagram (p : TxPacket) : Datagram := ⟨p.buf, p.len, ⟨0, 0⟩, none, 0, false⟩

namespace AudioNet

variable {D : Type}

def start (setup : AudioSetup D) : AudioNet D where
  tx d := .start (setup.channels d) (setup.startTimestamp d) (setup.flags d) (setup.ditherRng d)
  pushed _ _ := []
  sent := []
  rx := .start setup.maxChannels false fun r => newOwned r.startTime setup.holeFixWait
  bound _ := none
  joined _ := none
  collector := .new setup.maxChannels
  played := []

/-- The packet with this number, if the socket is bound to where it was sent. -/
def arrival (w : AudioNet D) (socketIndex k : Nat) : Option (D × TxPacket) :=
  (w.sent[k]?).filter fun x => decide (w.bound socketIndex = some x.2.flow.socket)

def arrivals (w : AudioNet D) (socketIndex : Nat) (packets : List Nat) : List (D × TxPacket) :=
  packets.filterMap (w.arrival socketIndex)

/-- Where a socket is bound. -/
def boundBy (w : AudioNet D) (addr : SocketAddr) : RxCommand → Nat → Option SocketAddr
  | .addSocket index _ => update w.bound index (some addr)
  | .removeSocket _ | .connectChannel .. | .disconnectChannel .. => w.bound

/-- Where a sink is connected, if there is such a slot. -/
def joinedBy (w : AudioNet D) : RxCommand → RingId → Option Join
  | .connectChannel index slot sink =>
      match w.rx.rx.sockets[index]?.join, w.bound index with
      | some socket, some addr =>
          if slot < socket.channels.length then
            update w.joined sink (some ⟨addr, slot, socket.latencySamples⟩)
          else w.joined
      | _, _ => w.joined
  | .addSocket .. | .removeSocket _ | .disconnectChannel .. => w.joined

/-- The rings as the collector finds them. -/
def found (setup : AudioSetup D) (w : AudioNet D) (k : Nat) : CollectorRing :=
  (setup.shape (setup.ring k), (w.rx.rings (setup.ring k)).2)

/-- What happens next; `none` is a panic. -/
def step [DecidableEq D] (setup : AudioSetup D) (w : AudioNet D) :
    AudioNetEvent D → Option (AudioNet D)
  | .tx d a => do
      let (s, sent) ← (w.tx d).step (setup.config d) a
      some { w with
        tx := update w.tx d s
        pushed := update w.pushed d fun ch => w.pushed d ch ++ a.pushed ch
        sent := w.sent ++ sent.map fun p => (d, p) }
  | .command c addr now => do
      let rx ← w.rx.step setup.shape setup.sampleRate (.command c now)
      some { w with rx := rx, bound := w.boundBy addr c, joined := w.joinedBy c }
  | .arrive socketIndex packets => do
      let datagrams := (w.arrivals socketIndex packets).map fun x => x.2.datagram
      let rx ← w.rx.step setup.shape setup.sampleRate (.readable socketIndex none datagrams)
      some { w with rx := rx }
  | .closingTick now => do
      let rx ← w.rx.step setup.shape setup.sampleRate (.closingTick now)
      some { w with rx := rx }
  | .collect c => do
      let (collector, _) ← w.collector.handleCommand c
      some { w with collector := collector }
  | .tick => do
      let (collector, out) ← w.collector.tick (w.found setup)
      let sources := w.collector.channels.map (Option.map CollectorChannel.source)
      some { w with
        collector := collector
        played := w.played ++ out.toList.map fun d => ⟨sources, d⟩ }

def run [DecidableEq D] (setup : AudioSetup D) (w : AudioNet D) (events : List (AudioNetEvent D)) :
    Option (AudioNet D) :=
  events.foldlM (step setup) w

/-! ## Sound runs -/

/-- The socket is for the packets of the device: the same rate and width, and a slot for
each slot. The seconds fit the header. -/
structure Agrees (setup : AudioSetup D) (socket : RxSocket) (d : D) (p : TxPacket) : Prop where
  sampleRate : (setup.config d).sampleRate = setup.sampleRate
  bytesPerSample : p.flow.bytesPerSample = socket.bytesPerSample
  slots : p.flow.channelIndices.length = socket.channels.length
  seconds : (p.flow.nextTs + (setup.config d).clockOffsetSamples).toNat /
    (setup.config d).sampleRate.toNat < 2 ^ 32

instance (setup : AudioSetup D) (socket : RxSocket) (d : D) (p : TxPacket) :
    Decidable (Agrees setup socket d p) :=
  decidable_of_iff (_ ∧ _ ∧ _ ∧ _)
    ⟨fun ⟨h1, h2, h3, h4⟩ => ⟨h1, h2, h3, h4⟩, fun ⟨h1, h2, h3, h4⟩ => ⟨h1, h2, h3, h4⟩⟩

end AudioNet

/-- The ring and the call of it. -/
def SinkWrite.call (c : SinkWrite RingId) : RingId × RingCall Sample :=
  (c.sink, .write c.startTimestamp c.items)

/-- Each call fits its ring, in the state it is made in. -/
def CallsFit (shape : RingId → RingShared) :
    List (RingId × RingCall Sample) → (RingId → RingState Sample) → Prop
  | [], _ => True
  | (r, c) :: cs, rings => c.Fits (shape r) (rings r) ∧
      ∀ rings' ∈ callRing shape rings r c, CallsFit shape cs rings'

instance instDecidableCallsFit (shape : RingId → RingShared) :
    (cs : List (RingId × RingCall Sample)) → (rings : RingId → RingState Sample) →
    Decidable (CallsFit shape cs rings)
  | [], _ => isTrue trivial
  | _ :: cs, _ =>
      have := instDecidableCallsFit shape cs
      inferInstanceAs (Decidable (_ ∧ _))

/-- The writes of each datagram fit. -/
def DatagramsFit (shape : RingId → RingShared) (sampleRate : BitVec 32) (socket : RxSocket) :
    List Datagram → (RingId → RingState Sample) → Prop
  | [], _ => True
  | d :: ds, rings =>
      ∀ calls ∈ sinkWrites socket.bytesPerSample socket.channels
          (headerTimestamp sampleRate d.buf) d.buf d.recvSize,
        CallsFit shape (calls.map SinkWrite.call) rings ∧
          ∀ rings' ∈ writeSinks shape rings calls, DatagramsFit shape sampleRate socket ds rings'

instance instDecidableDatagramsFit (shape : RingId → RingShared) (sampleRate : BitVec 32)
    (socket : RxSocket) : (ds : List Datagram) → (rings : RingId → RingState Sample) →
    Decidable (DatagramsFit shape sampleRate socket ds rings)
  | [], _ => isTrue trivial
  | _ :: ds, _ =>
      have := instDecidableDatagramsFit shape sampleRate socket ds
      inferInstanceAs (Decidable (∀ calls ∈ _, _ ∧ _))

namespace AudioNet

variable {D : Type}

/-- What the devices and the receiver rely on: batches are full, sockets are as
`add_socket` makes them, a ring is connected once, packets come to sockets that are for
them, and the rings are called within what they can hold. -/
def Sound (setup : AudioSetup D) (w : AudioNet D) : AudioNetEvent D → Prop
  | .tx d a => a.Full (setup.channels d)
  | .command c _ _ => c.Built ∧ ∀ index slot sink, c = .connectChannel index slot sink →
      w.joined sink = none
  | .arrive socketIndex packets => ∀ socket ∈ w.rx.rx.sockets[socketIndex]?.join,
      (∀ x ∈ w.arrivals socketIndex packets, Agrees setup socket x.1 x.2) ∧
        DatagramsFit setup.shape setup.sampleRate socket
          ((w.arrivals socketIndex packets).map fun x => x.2.datagram) w.rx.rings
  | .closingTick now => ∀ ts ∈ w.rx.tickTime now, CallsFit setup.shape
      ((w.rx.rx.sinkIds ++ w.rx.rx.silenceWriters.map SilenceWriter.sink).map fun r =>
        (r, .close ts)) w.rx.rings
  | .collect _ | .tick => True

instance : (c : RxCommand) → Decidable c.Built
  | .addSocket _ socket => decidable_of_iff
      ((∀ ch ∈ socket.channels, ch.isNone = true) ∧
        socket.emptySinksVecs = List.replicate socket.channels.length []) <| by
      constructor
      · rintro ⟨hnone, hvecs⟩
        exact ⟨_, List.eq_replicate_iff.mpr ⟨rfl, fun ch hch => Option.isNone_iff_eq_none.mp
          (hnone ch hch)⟩, hvecs⟩
      · rintro ⟨n, hchannels, hvecs⟩
        rw [hchannels, List.length_replicate]
        exact ⟨fun ch hch => by rw [List.eq_of_mem_replicate hch]; rfl, hvecs⟩
  | .removeSocket _ | .connectChannel .. | .disconnectChannel .. => isTrue trivial

instance (channels : Nat) (data : List (List Sample)) : Decidable (FullBatch channels data) :=
  decidable_of_iff (channels ≤ data.length ∧ (data.head?.map List.length).getD 0 < 131072 ∧
      ∀ samples ∈ data, samples.length = (data.head?.map List.length).getD 0) <| by
    constructor
    · rintro ⟨hle, hlt, hall⟩
      exact ⟨hle, _, hlt, hall⟩
    · rintro ⟨hle, n, hlt, hall⟩
      cases data with
      | nil => exact ⟨hle, by decide, fun _ h => absurd h List.not_mem_nil⟩
      | cons samples data =>
          have hn : samples.length = n := hall samples List.mem_cons_self
          exact ⟨hle, lt_of_eq_of_lt hn hlt, fun s hs => (hall s hs).trans hn.symm⟩

instance (setup : AudioSetup D) (w : AudioNet D) : (e : AudioNetEvent D) →
    Decidable (w.Sound setup e)
  | .tx _ (.push data) => inferInstanceAs (Decidable (FullBatch _ data))
  | .tx _ (.transmit ..) | .tx _ (.command ..) => isTrue trivial
  | .command (.connectChannel index slot sink) _ _ => decidable_of_iff (w.joined sink = none)
      ⟨fun h => ⟨trivial, fun _ _ _ heq => by cases heq; exact h⟩, fun h => h.2 _ _ _ rfl⟩
  | .command (.addSocket index socket) _ _ =>
      decidable_of_iff (RxCommand.addSocket index socket).Built
        ⟨fun h => ⟨h, fun _ _ _ heq => by cases heq⟩, fun h => h.1⟩
  | .command (.removeSocket _) _ _ | .command (.disconnectChannel ..) _ _ =>
      isTrue ⟨trivial, fun _ _ _ heq => by cases heq⟩
  | .arrive _ _ => inferInstanceAs (Decidable (∀ socket ∈ _, _ ∧ _))
  | .closingTick _ => inferInstanceAs (Decidable (∀ ts ∈ _, _))
  | .collect _ | .tick => isTrue trivial

/-- Every event of the run is sound where it happens. -/
def SoundRun [DecidableEq D] (setup : AudioSetup D) : AudioNet D → List (AudioNetEvent D) → Prop
  | _, [] => True
  | w, e :: es => w.Sound setup e ∧ ∀ w' ∈ w.step setup e, SoundRun setup w' es

instance instDecidableSoundRun [DecidableEq D] (setup : AudioSetup D) :
    (w : AudioNet D) → (events : List (AudioNetEvent D)) → Decidable (SoundRun setup w events)
  | _, [] => isTrue trivial
  | w, e :: es =>
      have := fun w' => instDecidableSoundRun setup w' es
      inferInstanceAs (Decidable (w.Sound setup e ∧ ∀ w' ∈ w.step setup e, _))

/-! ## Where a sample comes from -/

/-- The sample is silence, or what a packet carries in the slot of the ring: what was
pushed to the channel that the packet has there, as much before `u` as the latency and
the offsets of the device say. -/
inductive Heard (setup : AudioSetup D) (w : AudioNet D) (r : RingId) (u : Clock) (z : Sample) :
    Prop
  | silence : z = 0 → Heard setup w r u z
  | packet {j : Join} {d : D} {p : TxPacket} {width : SampleWidth} {x : Sample} :
      w.joined r = some j → (d, p) ∈ w.sent → p.flow.socket = j.addr →
      SampleWidth.ofBytes? p.flow.bytesPerSample = some width → width.Near x z →
      (x = 0 ∨ ∃ c T, p.flow.channelIndices[j.slot]? = some (some c) ∧
        BitVec.ofInt 64 T + (BitVec.ofNat 64 j.latencySamples +
          (setup.config d).clockOffsetSamples - (setup.config d).timestampShift) = u ∧
        x = pushedAt (setup.startTimestamp d).toInt (w.pushed d c) T) → Heard setup w r u z

variable {setup : AudioSetup D} {w w' : AudioNet D}

/-- What was joined, sent and pushed is still there. -/
structure Later (w w' : AudioNet D) : Prop where
  joined : ∀ r j, w.joined r = some j → w'.joined r = some j
  sent : ∀ x ∈ w.sent, x ∈ w'.sent
  pushed : ∀ d ch, ∃ more, w'.pushed d ch = w.pushed d ch ++ more

theorem Later.of_rx {rx : ReceiverThread} {bound : Nat → Option SocketAddr}
    {joined : RingId → Option Join} (h : ∀ r j, w.joined r = some j → joined r = some j) :
    w.Later { w with rx := rx, bound := bound, joined := joined } where
  joined := h
  sent _ hx := hx
  pushed _ _ := ⟨[], (List.append_nil _).symm⟩

/-- What was heard is still what was pushed. -/
theorem Heard.later (hlater : w.Later w') {r : RingId} {u : Clock} {z : Sample}
    (h : Heard setup w r u z) : Heard setup w' r u z := by
  cases h with
  | silence hz => exact .silence hz
  | @packet j d p width x hj hsent haddr hwidth hnear hx =>
      refine .packet (hlater.joined r _ hj) (hlater.sent _ hsent) haddr hwidth hnear
        (hx.elim Or.inl ?_)
      rintro ⟨c, T, hc, hT, rfl⟩
      obtain ⟨more, hmore⟩ := hlater.pushed d c
      refine (pushedAt_or_zero _ _ more T).imp id fun heq => ⟨c, T, hc, hT, ?_⟩
      rw [hmore]
      exact heq

end AudioNet

/-! ## The slots of the rings -/

theorem mem_of_mem_swapRemove {β : Type} {l : List β} {i : Nat} {x : β}
    (h : x ∈ FlowsReceiver.swapRemove l i) : x ∈ l := by
  unfold FlowsReceiver.swapRemove at h
  split at h
  · exact h
  · next last hlast =>
      rcases List.mem_or_eq_of_mem_set (List.mem_of_mem_dropLast h) with hx | rfl
      · exact hx
      · exact List.mem_of_getLast? hlast

/-- The sink is in its slot, among those that were there. -/
theorem pushSink_channels {socket socket' : RxSocket} {c : Nat} {sink : RingId} {shift : Clock}
    (hprepared : socket.Prepared)
    (h : FlowsReceiver.pushSink socket c sink shift = some socket') :
    socket'.latencySamples = socket.latencySamples ∧
      ∃ ch, socket'.channels = socket.channels.set c (some ch) ∧
        ∀ r ∈ ch.sinks, r = sink ∨ ∃ old, socket.channels[c]?.join = some old ∧ r ∈ old.sinks := by
  unfold FlowsReceiver.pushSink at h
  split at h
  · cases h
  · next channel hchannel =>
      cases h
      refine ⟨rfl, _, rfl, fun r hr => ?_⟩
      rcases List.mem_append.mp hr with hr | hr
      · exact Or.inr ⟨channel, by rw [hchannel]; rfl, hr⟩
      · exact Or.inl (List.mem_singleton.mp hr)
  · split at h
    · cases h
    · next sinks hsinks =>
        cases h
        refine ⟨rfl, _, rfl, fun r hr => Or.inl ?_⟩
        dsimp only at hr
        rw [hprepared sinks (List.mem_of_getLast? hsinks), List.nil_append] at hr
        exact List.mem_singleton.mp hr

/-- A sink that no silence writer has leaves them as they are. -/
theorem takeSink_of_not_mem {rx : FlowsReceiver} {sink : RingId}
    (h : ∀ sw ∈ rx.silenceWriters, sw.sink ≠ sink) :
    (rx.takeSink sink).2 = rx.silenceWriters := by
  have hnone : rx.silenceWriters.findIdx? (·.sink = sink) = none :=
    List.findIdx?_eq_none_iff.mpr fun sw hsw => decide_eq_false (h sw hsw)
  rw [FlowsReceiver.takeSink, hnone]

namespace AudioNet

variable {D : Type} {setup : AudioSetup D} {w w' : AudioNet D}

/-- Every sink is connected to the slot it is in, and no other ring is called: none of
the sinks, and none of those that are silenced. -/
structure Wired (setup : AudioSetup D) (w : AudioNet D) : Prop where
  waiting : w.rx.waiting = false
  unshifted : w.rx.rx.startTimestamp = none
  shifted : w.rx.rx.Shifted
  prepared : w.rx.Prepared
  bound : ∀ (f : Nat) socket, w.rx.rx.sockets[f]?.join = some socket →
    ∃ addr, w.bound f = some addr
  sinks : ∀ (f c : Nat) r socket ch addr, w.rx.rx.sockets[f]?.join = some socket →
    socket.channels[c]?.join = some ch → r ∈ ch.sinks → w.bound f = some addr →
    w.joined r = some ⟨addr, c, socket.latencySamples⟩
  writers : ∀ sw ∈ w.rx.rx.silenceWriters, w.joined sw.sink ≠ none
  fresh : ∀ r, w.joined r = none → w.rx.rings r = newOwned r.startTime setup.holeFixWait

theorem start_wired (setup : AudioSetup D) : (start setup).Wired setup := by
  have hnone : ∀ f : Nat, (start setup).rx.rx.sockets[f]?.join = none := by
    intro f
    show (List.replicate MAX_FLOWS (none : Option RxSocket))[f]?.join = none
    rw [List.getElem?_replicate]
    split <;> rfl
  exact {
    waiting := rfl
    unshifted := rfl
    shifted := (ReceiverThread.timed_start _ _ _).shifted
    prepared := ReceiverThread.prepared_start _ _ _
    bound := fun f socket h => by rw [hnone f] at h; cases h
    sinks := fun f c r socket ch addr h => by rw [hnone f] at h; cases h
    writers := fun sw h => absurd h List.not_mem_nil
    fresh := fun r _ => rfl }

/-- A ring that is not joined is no sink. -/
theorem Wired.unsunk (h : w.Wired setup) {r : RingId} (hr : w.joined r = none) :
    w.rx.rx.Unsunk r := by
  intro f c
  by_contra hcount
  obtain ⟨socket, ch, hsocket, hch, hmem⟩ := FlowsReceiver.sinkCount_pos_iff.mp hcount
  obtain ⟨addr, haddr⟩ := h.bound f socket hsocket
  rw [h.sinks f c r socket ch addr hsocket hch hmem haddr] at hr
  cases hr

/-- A connection to a slot that is there. -/
theorem joinedBy_connect {index slot : Nat} {sink : RingId} {socket : RxSocket} {addr : SocketAddr}
    (hsocket : w.rx.rx.sockets[index]?.join = some socket) (haddr : w.bound index = some addr)
    (hslot : slot < socket.channels.length) :
    w.joinedBy (.connectChannel index slot sink) =
      update w.joined sink (some ⟨addr, slot, socket.latencySamples⟩) := by
  simp only [joinedBy, hsocket, haddr, if_pos hslot]

/-- A connection to a slot that is not there. -/
theorem joinedBy_miss {index slot : Nat} {sink : RingId}
    (hmiss : ∀ socket, w.rx.rx.sockets[index]?.join = some socket →
      socket.channels.length ≤ slot) :
    w.joinedBy (.connectChannel index slot sink) = w.joined := by
  dsimp only [joinedBy]
  split
  · next socket addr hsocket haddr => exact if_neg (Nat.not_lt.mpr (hmiss socket hsocket))
  · rfl

/-- Only the sink that is connected is joined anew. -/
theorem joinedBy_other {index slot : Nat} {sink r : RingId} (hne : r ≠ sink) :
    w.joinedBy (.connectChannel index slot sink) r = w.joined r := by
  cases hsocket : w.rx.rx.sockets[index]?.join with
  | none => rw [joinedBy_miss fun socket h => by rw [hsocket] at h; cases h]
  | some socket =>
      cases haddr : w.bound index with
      | none => simp only [joinedBy, hsocket, haddr]
      | some addr =>
          by_cases hslot : slot < socket.channels.length
          · rw [joinedBy_connect hsocket haddr hslot, update_of_ne hne]
          · simp only [joinedBy, hsocket, haddr, if_neg hslot]

/-- A ring that is joined stays where it is. -/
theorem joinedBy_of_some {c : RxCommand}
    (hnew : ∀ index slot sink, c = .connectChannel index slot sink → w.joined sink = none)
    {r : RingId} {j : Join} (hr : w.joined r = some j) : w.joinedBy c r = some j := by
  cases c with
  | addSocket | removeSocket | disconnectChannel => exact hr
  | connectChannel index slot sink =>
      have hne : r ≠ sink := by
        rintro rfl
        rw [hnew index slot r rfl] at hr
        cases hr
      rw [joinedBy_other hne]
      exact hr

/-- A command leaves a ring as it is, or resets one that is fresh: it is joined then. -/
theorem Wired.resetRing (h : w.Wired setup) {c : RxCommand} (now : Option Clock)
    (hnew : ∀ index slot sink, c = .connectChannel index slot sink → w.joined sink = none)
    (r : RingId) : w.rx.rx.resetRing now w.rx.rings c r = w.rx.rings r ∨
      (w.joined r = none ∧ w.joinedBy c r ≠ none ∧ ∃ startTime,
        w.rx.rx.resetRing now w.rx.rings c r = newOwned startTime setup.holeFixWait) := by
  by_cases hother : (ReceiverEvent.command c now).Connects r
  · cases c with
    | addSocket | removeSocket | disconnectChannel => exact Or.inl rfl
    | connectChannel index slot sink =>
        obtain rfl : sink = r := hother
        have hr := hnew index slot sink rfl
        rw [FlowsReceiver.resetRing.eq_def]
        dsimp only
        cases hsocket : w.rx.rx.sockets[index]?.join with
        | none => exact Or.inl rfl
        | some socket =>
            cases now with
            | none => exact Or.inl rfl
            | some now =>
                dsimp only
                split
                · next hslot =>
                    obtain ⟨addr, haddr⟩ := h.bound index socket hsocket
                    refine Or.inr ⟨hr, ?_, now + (BitVec.ofNat 64 socket.latencySamples -
                      w.rx.rx.startTimestamp.getD 0), ?_⟩
                    · rw [joinedBy_connect hsocket haddr hslot.1, update_self]
                      exact Option.some_ne_none _
                    · rw [update_self, h.fresh sink hr]
                      rfl
                · exact Or.inl rfl
  · exact Or.inl (ReceiverThread.resetRing_other hother)

/-- The sockets after a command are wired as the sinks are joined. -/
theorem Wired.handle (h : w.Wired setup) {c : RxCommand} (hbuilt : c.Built)
    (hnew : ∀ index slot sink, c = .connectChannel index slot sink → w.joined sink = none)
    (addr : SocketAddr) {now : Option Clock} {ringSize : RingId → Nat} {rx : FlowsReceiver}
    (hhandle : w.rx.rx.handle now ringSize c = some rx) :
    (∀ (f : Nat) socket, rx.sockets[f]?.join = some socket → ∃ a, w.boundBy addr c f = some a) ∧
    (∀ (f c' : Nat) r socket ch a, rx.sockets[f]?.join = some socket →
      socket.channels[c']?.join = some ch → r ∈ ch.sinks → w.boundBy addr c f = some a →
      w.joinedBy c r = some ⟨a, c', socket.latencySamples⟩) ∧
    ∀ sw ∈ rx.silenceWriters, w.joinedBy c sw.sink ≠ none := by
  cases FlowsReceiver.handled_of_handle hhandle with
  | @added index socket hindex =>
      refine ⟨fun f s hs => ?_, fun f c' r s ch a hs hch hr ha => ?_, h.writers⟩
      · rw [join_set hindex] at hs
        dsimp only [boundBy]
        by_cases hf : f = index
        · rw [hf, update_self]
          exact ⟨addr, rfl⟩
        · rw [if_neg hf] at hs
          rw [update_of_ne hf]
          exact h.bound f s hs
      · rw [join_set hindex] at hs
        dsimp only [boundBy] at ha
        by_cases hf : f = index
        · -- a socket that is added has no channels
          rw [if_pos hf] at hs
          obtain rfl := Option.some.inj hs
          have hnone := hbuilt.fresh.1 _ (List.mem_of_getElem? (Option.join_eq_some_iff.mp hch))
          cases hnone
        · rw [if_neg hf] at hs
          rw [update_of_ne hf] at ha
          exact h.sinks f c' r s ch a hs hch hr ha
  | @removed index socket hsocket =>
      have hold : ∀ (f : Nat) s, (w.rx.rx.sockets.set index none)[f]?.join = some s →
          w.rx.rx.sockets[f]?.join = some s := by
        intro f s hs
        rw [join_set_none] at hs
        split at hs
        · cases hs
        · exact hs
      exact ⟨fun f s hs => h.bound f s (hold f s hs),
        fun f c' r s ch a hs => h.sinks f c' r s ch a (hold f s hs), h.writers⟩
  | notConnected hmiss =>
      rw [joinedBy_miss hmiss]
      exact ⟨h.bound, h.sinks, h.writers⟩
  | @connected index slot sink socket socket' hsocket hslot hpush =>
      obtain ⟨addr', haddr⟩ := h.bound index socket hsocket
      have hsink := hnew index slot sink rfl
      have hne : ∀ {r}, w.joined r ≠ none → r ≠ sink := by
        rintro r hr rfl
        exact hr hsink
      obtain ⟨hlatency, ch', hchannels, hsinks⟩ := pushSink_channels (h.prepared _ _ hsocket) hpush
      have hlt := join_lt hsocket
      rw [joinedBy_connect hsocket haddr hslot]
      refine ⟨fun f s hs => ?_, fun f c' r s ch a hs hch hr ha => ?_, fun sw hsw => ?_⟩
      · rw [join_set hlt] at hs
        by_cases hf : f = index
        · rw [hf]
          exact ⟨addr', haddr⟩
        · rw [if_neg hf] at hs
          exact h.bound f s hs
      · rw [join_set hlt] at hs
        have hkeep : ∀ {s ch}, w.rx.rx.sockets[f]?.join = some s → s.channels[c']?.join = some ch →
            r ∈ ch.sinks → update w.joined sink (some ⟨addr', slot, socket.latencySamples⟩) r =
              some ⟨a, c', s.latencySamples⟩ := by
          intro s ch hs hch hr
          have hr' := h.sinks f c' r s ch a hs hch hr ha
          rw [update_of_ne (hne (by rw [hr']; exact Option.some_ne_none _))]
          exact hr'
        by_cases hf : f = index
        · subst hf
          rw [if_pos rfl] at hs
          obtain rfl := Option.some.inj hs
          obtain rfl := Option.some.inj (haddr.symm.trans ha)
          rw [hchannels, join_set hslot] at hch
          rw [hlatency]
          by_cases hc : c' = slot
          · subst hc
            rw [if_pos rfl] at hch
            obtain rfl := Option.some.inj hch
            rcases hsinks r hr with rfl | ⟨old, hold, hr⟩
            · rw [update_self]
            · exact hkeep hsocket hold hr
          · rw [if_neg hc] at hch
            exact hkeep hsocket hch hr
        · rw [if_neg hf] at hs
          exact hkeep hs hch hr
      · dsimp only at hsw
        rw [takeSink_of_not_mem fun sw hsw heq => h.writers sw hsw (heq ▸ hsink)] at hsw
        rw [update_of_ne (hne (h.writers sw hsw))]
        exact h.writers sw hsw
  | notDisconnected => exact ⟨h.bound, h.sinks, h.writers⟩
  | @disconnected index slot i rbShared socket ch hsocket hch hi =>
      have hlt := join_lt hsocket
      obtain ⟨addr', haddr⟩ := h.bound index socket hsocket
      refine ⟨fun f s hs => ?_, fun f c' r s ch' a hs hch' hr ha => ?_, fun sw hsw => ?_⟩
      · rw [join_set hlt] at hs
        by_cases hf : f = index
        · exact ⟨addr', hf ▸ haddr⟩
        · rw [if_neg hf] at hs
          exact h.bound f s hs
      · rw [join_set hlt] at hs
        by_cases hf : f = index
        · subst hf
          rw [if_pos rfl] at hs
          obtain rfl := Option.some.inj hs
          rw [join_set (join_lt hch)] at hch'
          by_cases hc : c' = slot
          · subst hc
            rw [if_pos rfl] at hch'
            obtain rfl := Option.some.inj hch'
            exact h.sinks f c' r socket ch a hsocket hch (mem_of_mem_swapRemove hr) ha
          · rw [if_neg hc] at hch'
            exact h.sinks f c' r socket ch' a hsocket hch' hr ha
        · rw [if_neg hf] at hs
          exact h.sinks f c' r s ch' a hs hch' hr ha
      · rcases List.mem_append.mp hsw with hsw | hsw
        · exact h.writers sw hsw
        · obtain ⟨now, _, rfl⟩ := List.mem_map.mp hsw
          obtain ⟨hlt', hfound, _⟩ := List.findIdx?_eq_some_iff_getElem.mp hi
          have hmem : rbShared ∈ ch.sinks := of_decide_eq_true hfound ▸ List.getElem_mem hlt'
          show w.joined rbShared ≠ none
          rw [h.sinks index slot rbShared socket ch addr' hsocket hch hmem haddr]
          exact Option.some_ne_none _

/-- The thread after a command. -/
theorem Wired.command (h : w.Wired setup) {c : RxCommand} (hbuilt : c.Built)
    (hnew : ∀ index slot sink, c = .connectChannel index slot sink → w.joined sink = none)
    (addr : SocketAddr) {now : Option Clock} {rx : ReceiverThread}
    (hstep : w.rx.step setup.shape setup.sampleRate (.command c now) = some rx) :
    ({ w with rx := rx, bound := w.boundBy addr c, joined := w.joinedBy c } :
      AudioNet D).Wired setup := by
  have hprepared := (ReceiverThread.step_sinks (e := .command c now) h.prepared hbuilt.fresh hstep
    (.external 0)).1
  obtain ⟨tables, hhandle, hstep⟩ := Option.bind_eq_some_iff.mp hstep
  obtain ⟨hbound, hsinks, hwriters⟩ := h.handle hbuilt hnew addr hhandle
  cases hstep
  exact {
    waiting := h.waiting
    unshifted := (FlowsReceiver.handle_startTimestamp hhandle).trans h.unshifted
    shifted := FlowsReceiver.handle_shifted h.shifted hbuilt.fresh hhandle
    prepared := hprepared
    bound := hbound
    sinks := hsinks
    writers := hwriters
    fresh := fun r hr => by
      have hold : w.joined r = none := by
        cases hj : w.joined r with
        | none => rfl
        | some j =>
            have hj' := joinedBy_of_some hnew hj
            exact absurd (hj'.symm.trans hr) (Option.some_ne_none j)
      rcases h.resetRing now hnew r with heq | ⟨_, hne, _⟩
      · exact heq.trans (h.fresh r hold)
      · exact absurd hr hne }

/-- The thread after datagrams or a closing tick: only the rings have changed, and which
of them are silenced. -/
theorem Wired.called (h : w.Wired setup) {rx : ReceiverThread}
    (hwaiting : rx.waiting = w.rx.waiting) (hsockets : rx.rx.sockets = w.rx.rx.sockets)
    (hstart : rx.rx.startTimestamp = w.rx.rx.startTimestamp)
    (hwriters : ∀ sw ∈ rx.rx.silenceWriters, sw ∈ w.rx.rx.silenceWriters)
    (hrings : ∀ r, w.joined r = none → rx.rings r = w.rx.rings r) :
    ({ w with rx := rx } : AudioNet D).Wired setup where
  waiting := hwaiting.trans h.waiting
  unshifted := hstart.trans h.unshifted
  shifted := by
    have hshifted := h.shifted
    unfold FlowsReceiver.Shifted at hshifted ⊢
    rw [hstart, hsockets]
    exact hshifted
  prepared := by
    have hprepared := h.prepared
    unfold ReceiverThread.Prepared at hprepared ⊢
    rw [hsockets]
    exact hprepared
  bound := fun f socket hs => h.bound f socket (hsockets ▸ hs)
  sinks := fun f c r socket ch addr hs => h.sinks f c r socket ch addr (hsockets ▸ hs)
  writers := fun sw hsw => h.writers sw (hwriters sw hsw)
  fresh := fun r hr => (hrings r hr).trans (h.fresh r hr)

end AudioNet

/-! ## What is written to the rings -/

section

variable {shape : RingId → RingShared} {P : RingId → Clock → Sample → Prop}
  {rings rings' : RingId → RingState Sample}

/-- Calls that fit keep what the rings tell. -/
theorem tells_calls {cs : List (RingId × RingCall Sample)}
    (h : ∀ r, Tells (shape r) (P r) (rings r)) (hfit : CallsFit shape cs rings)
    (hP : ∀ c ∈ cs, c.2.Tells (P c.1))
    (hrun : cs.foldlM (fun rings c => callRing shape rings c.1 c.2) rings = some rings') :
    ∀ r, Tells (shape r) (P r) (rings' r) := by
  induction cs generalizing rings with
  | nil =>
      cases hrun
      exact h
  | cons c cs ih =>
      rw [List.foldlM_cons] at hrun
      obtain ⟨rings₁, hcall, hrun⟩ := Option.bind_eq_some_iff.mp hrun
      obtain ⟨hfits, hrest⟩ := hfit
      refine ih (fun r => ?_) (hrest rings₁ hcall) (fun c hc => hP c (List.mem_cons_of_mem _ hc))
        hrun
      obtain ⟨s, hs, rfl⟩ := Option.map_eq_some_iff.mp hcall
      by_cases hr : r = c.1
      · rw [hr, update_self]
        exact (h c.1).call hfits (hP c List.mem_cons_self) hs
      · rw [update_of_ne hr]
        exact h r

theorem tells_writeSinks {calls : List (SinkWrite RingId)}
    (h : ∀ r, Tells (shape r) (P r) (rings r))
    (hfit : CallsFit shape (calls.map SinkWrite.call) rings)
    (hP : ∀ c ∈ calls, ∀ j x, c.items[j]? = some x →
      P c.sink (c.startTimestamp + BitVec.ofNat 64 j) x)
    (hrun : writeSinks shape rings calls = some rings') :
    ∀ r, Tells (shape r) (P r) (rings' r) := by
  refine tells_calls h hfit (fun c hc => ?_) ?_
  · obtain ⟨c, hmem, rfl⟩ := List.mem_map.mp hc
    exact hP c hmem
  · rw [List.foldlM_map]
    exact hrun

theorem tells_receiveInto {sampleRate : BitVec 32} {socket : RxSocket} {ds : List Datagram}
    (h : ∀ r, Tells (shape r) (P r) (rings r)) (hfit : DatagramsFit shape sampleRate socket ds rings)
    (hP : ∀ d ∈ ds, ∀ calls ∈ sinkWrites socket.bytesPerSample socket.channels
      (headerTimestamp sampleRate d.buf) d.buf d.recvSize, ∀ c ∈ calls, ∀ j x,
        c.items[j]? = some x → P c.sink (c.startTimestamp + BitVec.ofNat 64 j) x)
    (hrun : receiveInto shape sampleRate true socket ds rings = some rings') :
    ∀ r, Tells (shape r) (P r) (rings' r) := by
  induction ds generalizing rings with
  | nil =>
      cases hrun
      exact h
  | cons d ds ih =>
      rw [receiveInto] at hrun
      split at hrun
      · cases hrun
        exact h
      · obtain ⟨rings₁, hwrite, hrun⟩ := Option.bind_eq_some_iff.mp hrun
        rw [writeDatagram, if_pos rfl] at hwrite
        obtain ⟨calls, hcalls, hwrite⟩ := Option.bind_eq_some_iff.mp hwrite
        obtain ⟨hcallsFit, hrest⟩ := hfit calls hcalls
        exact ih (tells_writeSinks h hcallsFit (hP d List.mem_cons_self calls hcalls) hwrite)
          (hrest rings₁ hwrite) (fun d hd => hP d (List.mem_cons_of_mem _ hd)) hrun

end

/-! ## What a packet writes -/

/-- What a reader of a lane has yielded stands in its cells. -/
theorem SamplesReader.collect_getElem? {w : SampleWidth} {bytes : Nat → Byte} {n i m : Nat}
    (hi : i < n) (calls : Nat) {j₀ j : Nat} (hj₀ : j₀ ≤ m) {x : Sample}
    (h : ((SamplesReader.atCell w bytes n i j₀ m).collect w calls).1[j]? = some x) :
    j₀ + j < m ∧ x = w.toSample fun k => bytes (cellPos n w.bytes i (j₀ + j) + k) := by
  induction calls generalizing j₀ j with
  | zero => cases h
  | succ calls ih =>
      rcases Nat.lt_or_ge j₀ m with hlt | hge
      · rw [collect, next_atCell hi hlt] at h
        cases j with
        | zero =>
            cases h
            exact ⟨hlt, rfl⟩
        | succ j =>
            rw [show j₀ + (j + 1) = j₀ + 1 + j by omega]
            exact ih hlt h
      · obtain rfl : j₀ = m := Nat.le_antisymm hj₀ hge
        rw [collect, next_atCell_end hi] at h
        cases h

/-- What is written to the sinks of a full packet: to each the cells of its slot. -/
theorem sinkWrites_cells {S : Type} {w : SampleWidth} {channels : List (Option (RxChannel S))}
    {fpp : Nat} {timestamp : Clock} {buf : Nat → Byte} {calls : List (SinkWrite S)}
    (h : sinkWrites w.bytes channels timestamp buf (9 + channels.length * w.bytes * fpp) =
      some calls) {c : SinkWrite S} (hc : c ∈ calls) :
    ∃ i ch, channels[i]?.join = some ch ∧ c.sink ∈ ch.sinks ∧
      c.startTimestamp = timestamp + ch.timestampShift ∧
      ∀ j x, c.items[j]? = some x → j < fpp ∧ x = cellSample w buf channels.length i j := by
  have hn : 0 < channels.length := by
    by_contra hzero
    rw [Nat.le_zero.mp (Nat.not_lt.mp hzero)] at h
    simp only [sinkWrites, List.eq_nil_of_length_eq_zero (Nat.le_zero.mp (Nat.not_lt.mp hzero)),
      List.length_nil, Nat.zero_mul, or_true, if_true] at h
    cases h
  rw [sinkWrites_full hn rfl] at h
  obtain rfl := Option.some.inj h
  obtain ⟨⟨o, i⟩, hmem, hc⟩ := List.mem_flatMap.mp hc
  cases o with
  | none => cases hc
  | some ch =>
      rw [channelWrites_full hn] at hc
      obtain ⟨sink, hsink, rfl⟩ := List.mem_map.mp hc
      have hi := (List.mem_zipIdx' hmem).1
      refine ⟨i, ch, ?_, hsink, rfl, fun j x hx => ?_⟩
      · rw [List.getElem?_eq_getElem hi, ← (List.mem_zipIdx' hmem).2]
        rfl
      · obtain ⟨hj, rfl⟩ := SamplesReader.collect_getElem? hi _ (Nat.zero_le _) hx
        rw [Nat.zero_add] at hj ⊢
        refine ⟨hj, ?_⟩
        rw [cellSample]
        simp only [Nat.add_assoc]

end Inferno
