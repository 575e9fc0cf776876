import Inferno.Common

/-!
# Buffers and spawned tasks

`ChannelsBuffering`: what the subscriber does at the audio end when a local
channel is connected to a slot of a receive flow or disconnected from it. The
effects are not applied at once: each is a task handed to `tokio::spawn`, and
here a task is the value that says what it will do.
-/

namespace Inferno

/-- A shared ring buffer: made by `new_owned` for a slot of a receive flow, or
the one given from outside for a local channel. -/
inductive RingId where
  | owned (serial : Nat) (startTime : Clock)
  | external (channelIndex : Nat)
deriving DecidableEq

/-- The bodies of the spawned tasks: calls of `SamplesCollector` and of
`FlowsReceiver`. -/
inductive Task where
  | collectorConnect (channelIndex : Nat) (source : RingId) (latencySamples : Nat)
  | collectorDisconnect (channelIndex : Nat)
  | receiverConnect (flowIndex channelInFlow channelIndex : Nat) (sink : RingId)
  | receiverDisconnect (flowIndex channelInFlow channelIndex : Nat) (rbShared : RingId)
  | removeSocket (flowIndex : Nat)
deriving DecidableEq

/-- The two implementations of `ChannelsBuffering`. -/
inductive Buffering where
  | owned
  | external
deriving DecidableEq

namespace Buffering

/-- `connect_channel`: the slot's ring afterwards, the sink if one has been
made, and what is spawned. `fresh` is the ring `new_owned` would make. -/
def connectChannel (b : Buffering) (fresh : RingId) (rbOutput : Option RingId)
    (channelIndex latencySamples : Nat) : Option RingId × Option RingId × List Task :=
  match b with
  | .owned =>
      let source := rbOutput.getD fresh
      (some source, if rbOutput.isNone then some source else none,
        [.collectorConnect channelIndex source latencySamples])
  | .external => (rbOutput, some (.external channelIndex), [])

/-- `disconnect_channel`. -/
def disconnectChannel (b : Buffering) (channelIndex flowIndex channelInFlow : Nat) : List Task :=
  match b with
  | .owned => [.collectorDisconnect channelIndex]
  | .external =>
      [.receiverDisconnect flowIndex channelInFlow channelIndex (.external channelIndex)]

end Buffering

end Inferno
