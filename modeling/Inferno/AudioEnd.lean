import Inferno.Lib.Detached
import Inferno.SamplesCollector
import Inferno.SubscriberWorld
import Inferno.ResolveSlots

/-!
# The audio end

The subscriber among the others, with the samples collector: the tasks of
`OwnedBuffering` send it commands, and it takes them between its ticks. When
all tasks have run and all commands are taken, the audio of a local channel
comes from where the channel is connected (`AudioRight`): the collector's slot
has the ring of the channel's slot in its flow, or the channel's own ring is
among the sinks of that slot and nowhere else.
-/

namespace Inferno

open Detached

/-! ## The collector's commands -/

/-- The name the collector knows a ring by. -/
def RingId.number : RingId → Nat
  | .owned serial _ => serial
  | .external channelIndex => channelIndex

/-- `SamplesCollector::connect_channel`, `disconnect_channel`: what is sent. -/
def Task.collectorCommand : Task → Option CollectorCommand
  | .collectorConnect channelIndex source latencySamples =>
      some (.connectChannel channelIndex source.number latencySamples)
  | .collectorDisconnect channelIndex => some (.disconnectChannel channelIndex)
  | .receiverConnect .. | .receiverDisconnect .. | .removeSocket _ => none

/-- The ring that the collector reads for a channel. -/
def Collector.slot (c : Collector) (chi : Nat) : Option Nat :=
  (c.channels[chi]?.join).map CollectorChannel.source

/-! ## The world -/

structure AudioWorld where
  rx : RxWorld
  collector : Collector
  commands : List CollectorCommand

inductive AudioEvent where
  | rx (e : RxEvent)
  | command
  | tick (rings : Nat → CollectorRing)

namespace AudioWorld

def start (worker : Subscriber) (receiver : FlowsReceiver) (channelsCount : Nat) : AudioWorld where
  rx := .start worker receiver
  collector := .new channelsCount
  commands := []

/-- The command that an event sends: a task has run. -/
def sent (w : RxWorld) : RxEvent → List CollectorCommand
  | .task i => (w.worker.spawned[i]?.bind Task.collectorCommand).toList
  | _ => []

def step (cfg : RxConfig) (a : AudioWorld) : AudioEvent → Option AudioWorld
  | .rx e => (a.rx.step cfg e).map fun rx =>
      { a with rx := rx, commands := a.commands ++ sent a.rx e }
  | .command =>
      match a.commands with
      | [] => none
      | c :: cs => (a.collector.handleCommand c).map fun (collector, _) =>
          { a with collector := collector, commands := cs }
  | .tick rings => (a.collector.tick rings).map fun (collector, _) =>
      { a with collector := collector }

/-- The worlds a run gets to without a panic, with what every event of it meets
in the world it happens in. -/
def Reaches (cfg : RxConfig) (P : AudioWorld → AudioEvent → Prop) :
    AudioWorld → AudioWorld → Prop :=
  Relation.ReflTransGen fun v u => ∃ e, P v e ∧ v.step cfg e = some u

/-- Such a run, carried out. -/
def runWith (cfg : RxConfig) (P : AudioWorld → AudioEvent → Prop) [∀ a e, Decidable (P a e)]
    (a : AudioWorld) : List AudioEvent → Option AudioWorld
  | [] => some a
  | e :: es => if P a e then (a.step cfg e).bind fun a => a.runWith cfg P es else none

theorem reaches_of_runWith {cfg : RxConfig} {P : AudioWorld → AudioEvent → Prop}
    [∀ a e, Decidable (P a e)] {events : List AudioEvent} {a u : AudioWorld}
    (h : a.runWith cfg P events = some u) : Reaches cfg P a u := by
  induction events generalizing a with
  | nil =>
      obtain rfl := Option.some.inj h
      exact .refl
  | cons e es ih =>
      rw [runWith] at h
      split at h
      · next hP =>
          obtain ⟨v, hv, h⟩ := Option.bind_eq_some_iff.mp h
          exact .head ⟨e, hP, hv⟩ (ih h)
      · cases h

/-- All spawned tasks have run and all commands are taken. -/
def isSettled (a : AudioWorld) : Bool :=
  a.rx.worker.spawned.isEmpty && a.rx.receiver.commands.isEmpty && a.commands.isEmpty

end AudioWorld

/-! ## What is right -/

/-- The ring of a slot. -/
def slotRing (flows : List (Option RxFlow)) (r : ChannelOtherEnd) : Option RingId :=
  (flowAt flows r).bind fun flow => flow.channelsRbOutputs[r.channelInFlow]?.join

/-- The source of a channel's subscription. -/
def Subscriber.source (s : Subscriber) (chi : Nat) : Option RingId :=
  (remoteOf s.channels chi).bind (slotRing s.flows)

/-- The slot of a flow that an end is at. -/
def ChannelOtherEnd.place (r : ChannelOtherEnd) : Nat × Nat := (r.localFlowIndex, r.channelInFlow)

/-- The slot a channel is connected to. -/
def Subscriber.place (s : Subscriber) (chi : Nat) : Option (Nat × Nat) :=
  (remoteOf s.channels chi).map ChannelOtherEnd.place

/-- How often a ring is among the sinks of a slot. -/
def RxSocket.sinkCount (socket : RxSocket) (ring : RingId) (c : Nat) : Nat :=
  match socket.channels[c]?.join with
  | none => 0
  | some ch => ch.sinks.count ring

def FlowsReceiver.sinkCount (rx : FlowsReceiver) (ring : RingId) (f c : Nat) : Nat :=
  match rx.sockets[f]?.join with
  | none => 0
  | some socket => socket.sinkCount ring c

/-- The last subscription command has won. -/
def AudioRight (cfg : RxConfig) (a : AudioWorld) : Prop :=
  match cfg.buffering with
  | .owned => ∀ chi, a.collector.slot chi = (a.rx.worker.source chi).map RingId.number ∧
      ((a.collector.slot chi).isSome ↔ (remoteOf a.rx.worker.channels chi).isSome)
  | .external => ∀ chi f c, a.rx.receiver.sinkCount (.external chi) f c =
      if a.rx.worker.place chi = some (f, c) then 1 else 0

/-! ## Orders -/

/-- What a task does to the collector's slot of a channel. -/
def Task.slotEffect (chi : Nat) : Task → Option (Option Nat)
  | .collectorConnect channelIndex source _ =>
      if channelIndex = chi then some (some source.number) else none
  | .collectorDisconnect channelIndex => if channelIndex = chi then some none else none
  | .receiverConnect .. | .receiverDisconnect .. | .removeSocket _ => none

/-- What a task does with the ring of a channel among the sinks. -/
def Task.move (chi : Nat) : Task → Option (Move (Nat × Nat))
  | .receiverConnect f c _ sink => if sink = .external chi then some (.put (f, c)) else none
  | .receiverDisconnect f c _ rbShared =>
      if rbShared = .external chi then some (.take (f, c)) else none
  | .collectorConnect .. | .collectorDisconnect _ | .removeSocket _ => none

/-- The receiver has noted a flow with the slot. -/
def FlowsReceiver.hasSlot (rx : FlowsReceiver) (p : Nat × Nat) : Bool :=
  (rx.flowsInfo[p.1]?.join).any fun info => p.2 < info.channelsMap.length

/-- No channel is connected to the flow at an index. -/
def Subscriber.isLeft (s : Subscriber) (f : Nat) : Bool :=
  s.channels.all fun o => (o.bind ChannelSubscription.remote).all (·.localFlowIndex != f)

/-- The `i`-th task may run: with buffers of its own, if the latest task for
the channel stays behind as long as there are others; with buffers from
outside, if no earlier task for the channel is left, the receiver knows the
slot that the channel is connected to, and no channel is connected to a flow
whose socket goes. -/
def Task.Fits (w : RxWorld) (i : Nat) : Buffering → Task → Prop
  | .owned, .collectorConnect chi _ _ => KeepsLast (Task.slotEffect chi) w.worker.spawned i
  | .owned, .collectorDisconnect chi => KeepsLast (Task.slotEffect chi) w.worker.spawned i
  | .external, .receiverConnect f c _ (.external chi) =>
      InTurn (Task.move chi) w.worker.spawned i ∧
        (w.worker.place chi = some (f, c) → w.receiver.hasSlot (f, c) = true)
  | .external, .receiverDisconnect _ _ _ (.external chi) =>
      InTurn (Task.move chi) w.worker.spawned i
  | .external, .removeSocket f => w.worker.isLeft f = true
  | _, _ => True

instance (w : RxWorld) (i : Nat) : (b : Buffering) → (t : Task) → Decidable (t.Fits w i b)
  | .owned, .collectorConnect chi _ _ =>
      inferInstanceAs (Decidable (KeepsLast (Task.slotEffect chi) w.worker.spawned i))
  | .owned, .collectorDisconnect chi =>
      inferInstanceAs (Decidable (KeepsLast (Task.slotEffect chi) w.worker.spawned i))
  | .owned, .receiverConnect .. => isTrue trivial
  | .owned, .receiverDisconnect .. => isTrue trivial
  | .owned, .removeSocket _ => isTrue trivial
  | .external, .collectorConnect .. => isTrue trivial
  | .external, .collectorDisconnect _ => isTrue trivial
  | .external, .receiverConnect f c _ (.external chi) =>
      inferInstanceAs (Decidable (InTurn (Task.move chi) w.worker.spawned i ∧
        (w.worker.place chi = some (f, c) → w.receiver.hasSlot (f, c) = true)))
  | .external, .receiverConnect _ _ _ (.owned _ _) => isTrue trivial
  | .external, .receiverDisconnect _ _ _ (.external chi) =>
      inferInstanceAs (Decidable (InTurn (Task.move chi) w.worker.spawned i))
  | .external, .receiverDisconnect _ _ _ (.owned _ _) => isTrue trivial
  | .external, .removeSocket f => inferInstanceAs (Decidable (w.worker.isLeft f = true))

/-- The condition on an event. -/
def OrderFits (cfg : RxConfig) (a : AudioWorld) : AudioEvent → Prop
  | .rx (.task i) => ∀ t ∈ a.rx.worker.spawned[i]?, t.Fits a.rx i cfg.buffering
  | _ => True

instance (cfg : RxConfig) (a : AudioWorld) : (e : AudioEvent) → Decidable (OrderFits cfg a e)
  | .rx (.task i) => inferInstanceAs (Decidable
      (∀ t ∈ a.rx.worker.spawned[i]?, t.Fits a.rx i cfg.buffering))
  | .rx (.subscribe ..) | .rx (.unsubscribe _) | .rx .saveState | .rx .shutdown | .rx (.deliver _)
  | .rx .handle | .rx (.resolve _) | .rx (.job ..) | .rx (.receive ..) | .rx .apply | .rx .finish
  | .rx (.scan _) | .rx (.destroy _) | .rx (.receiver _) | .command | .tick _ => isTrue trivial

end Inferno
