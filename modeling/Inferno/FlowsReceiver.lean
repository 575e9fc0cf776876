import Inferno.ChannelsBuffering
import Inferno.FlowsTransmit
import Inferno.Wire

/-!
# Sockets and sinks of the receiver

`FlowsReceiver` and the commands of its thread: which flow index has a socket,
and which rings the samples of each slot go to. A panic is `none`. What the
thread does with packets is in `Wire`. What a command does is told by `Handled`.
-/

namespace Inferno

/-- `FlowInfo` of the receiver: for each slot, the local channels it is for. -/
structure RxFlowInfo where
  channelsMap : List (List Bool)
  latencySamples : Nat
deriving DecidableEq

/-- What commands use of a `SocketData`. -/
structure RxSocket where
  sendKeepalives : Bool
  bytesPerSample : Nat
  latencySamples : Nat
  channels : List (Option (RxChannel RingId))
  emptySinksVecs : List (List RingId)

/-- `SilenceWriter`. -/
structure SilenceWriter where
  sink : RingId
  endTimestamp : Clock
deriving DecidableEq

/-- `Command` of the receiver. -/
inductive RxCommand where
  | addSocket (index : Nat) (socket : RxSocket)
  | removeSocket (index : Nat)
  | connectChannel (socketIndex channelInFlow : Nat) (sink : RingId)
  | disconnectChannel (socketIndex channelInFlow : Nat) (rbShared : RingId)

/-- `FlowsReceiver`, the queue to its thread, and the thread's tables. -/
structure FlowsReceiver where
  maxChannels : Nat
  flowsInfo : List (Option RxFlowInfo)
  commands : List RxCommand
  sockets : List (Option RxSocket)
  silenceWriters : List SilenceWriter
  startTimestamp : Option Clock

namespace FlowsReceiver

/-- `FlowsReceiver::start`. -/
def start (maxChannels : Nat) (startTimestamp : Option Clock) : FlowsReceiver where
  maxChannels := maxChannels
  flowsInfo := List.replicate MAX_FLOWS none
  commands := []
  sockets := List.replicate MAX_FLOWS none
  silenceWriters := []
  startTimestamp := startTimestamp

/-! ## Calls -/

def addSocket (rx : FlowsReceiver) (localIndex : Nat) (sendKeepalives : Bool)
    (bytesPerSample channelsCount latencySamples : Nat) : FlowsReceiver :=
  if localIndex ≥ rx.flowsInfo.length then rx
  else
    let info : RxFlowInfo := {
      channelsMap := List.replicate channelsCount (List.replicate rx.maxChannels false)
      latencySamples := latencySamples }
    let socket : RxSocket := {
      sendKeepalives := sendKeepalives
      bytesPerSample := bytesPerSample
      latencySamples := latencySamples
      channels := List.replicate channelsCount none
      emptySinksVecs := List.replicate channelsCount [] }
    { rx with
      flowsInfo := rx.flowsInfo.set localIndex (some info)
      commands := rx.commands ++ [.addSocket localIndex socket] }

def removeSocket (rx : FlowsReceiver) (localIndex : Nat) : FlowsReceiver :=
  if localIndex ≥ rx.flowsInfo.length then rx
  else { rx with
    flowsInfo := rx.flowsInfo.set localIndex none
    commands := rx.commands ++ [.removeSocket localIndex] }

/-- Sets a bit of `channels_map`; nothing if the flow or the slot is not there. -/
def mapChannel (rx : FlowsReceiver) (localFlowIndex channelInFlow localChannelIndex : Nat)
    (bit : Bool) : Option FlowsReceiver := do
  let info ← rx.flowsInfo[localFlowIndex]?.join
  let bits ← info.channelsMap[channelInFlow]?
  let channelsMap := info.channelsMap.set channelInFlow (bits.set localChannelIndex bit)
  some { rx with
    flowsInfo := rx.flowsInfo.set localFlowIndex (some { info with channelsMap := channelsMap }) }

def connectChannel (rx : FlowsReceiver) (localFlowIndex channelInFlow localChannelIndex : Nat)
    (sink : RingId) : FlowsReceiver :=
  match rx.mapChannel localFlowIndex channelInFlow localChannelIndex true with
  | none => rx
  | some rx =>
      { rx with commands := rx.commands ++ [.connectChannel localFlowIndex channelInFlow sink] }

def disconnectChannel (rx : FlowsReceiver) (localFlowIndex channelInFlow localChannelIndex : Nat)
    (rbShared : RingId) : FlowsReceiver :=
  match rx.mapChannel localFlowIndex channelInFlow localChannelIndex false with
  | none => rx
  | some rx =>
      { rx with
        commands := rx.commands ++ [.disconnectChannel localFlowIndex channelInFlow rbShared] }

/-! ## The thread -/

/-- `swap_remove`: the last element takes the place. -/
def swapRemove {β : Type} (l : List β) (i : Nat) : List β :=
  match l.getLast? with
  | none => l
  | some last => (l.set i last).dropLast

/-- The sink that is connected: a silence writer's if it has the ring. -/
def takeSink (rx : FlowsReceiver) (sink : RingId) : RingId × List SilenceWriter :=
  match rx.silenceWriters.findIdx? (·.sink = sink) with
  | some existing => (sink, swapRemove rx.silenceWriters existing)
  | none => (sink, rx.silenceWriters)

/-- Adds a sink to a slot; the vector of sinks is taken from those prepared. -/
def pushSink (socket : RxSocket) (channelInFlow : Nat) (sink : RingId) (timestampShift : Clock) :
    Option RxSocket :=
  match socket.channels[channelInFlow]? with
  | none => none
  | some (some channel) =>
      let channel := { channel with sinks := channel.sinks ++ [sink] }
      some { socket with channels := socket.channels.set channelInFlow (some channel) }
  | some none =>
      match socket.emptySinksVecs.getLast? with
      | none => none
      | some sinks =>
          let channel : RxChannel RingId := {
            sinks := sinks ++ [sink]
            timestampShift := timestampShift
            latencySamples := BitVec.ofNat 64 socket.latencySamples }
          some { socket with
            channels := socket.channels.set channelInFlow (some channel)
            emptySinksVecs := socket.emptySinksVecs.dropLast }

/-- One command of the thread, with the media clock if there is one and the
sizes of the rings. -/
def handle (now : Option Clock) (ringSize : RingId → Nat) (rx : FlowsReceiver) :
    RxCommand → Option FlowsReceiver
  | .addSocket index socket =>
      if index < rx.sockets.length then some { rx with sockets := rx.sockets.set index (some socket) }
      else none
  | .removeSocket index =>
      match rx.sockets[index]?.join with
      | none => none
      | some _ => some { rx with sockets := rx.sockets.set index none }
  | .connectChannel socketIndex channelInFlow sink =>
      match rx.sockets[socketIndex]?.join with
      | none => some rx
      | some socket =>
          if channelInFlow ≥ socket.channels.length then some rx
          else do
            let shift := BitVec.ofNat 64 socket.latencySamples - rx.startTimestamp.getD 0
            let (sink, silenceWriters) := rx.takeSink sink
            let socket ← pushSink socket channelInFlow sink shift
            some { rx with
              sockets := rx.sockets.set socketIndex (some socket)
              silenceWriters := silenceWriters }
  | .disconnectChannel socketIndex channelInFlow rbShared =>
      match rx.sockets[socketIndex]?.join with
      | none => some rx
      | some socket =>
          match socket.channels[channelInFlow]?.join with
          | none => some rx
          | some ch =>
              match ch.sinks.findIdx? (· = rbShared) with
              | none => some rx
              | some i =>
                  let rest := { ch with sinks := swapRemove ch.sinks i }
                  let socket := { socket with
                    channels := socket.channels.set channelInFlow (some rest) }
                  let size := BitVec.ofNat 64 (ringSize rbShared + ringSize rbShared / 2)
                  let writers := now.toList.map fun now =>
                    ⟨rbShared, now + size + ch.timestampShift⟩
                  some { rx with
                    sockets := rx.sockets.set socketIndex (some socket)
                    silenceWriters := rx.silenceWriters ++ writers }

/-- The thread takes the next command. -/
def takeCommand (now : Option Clock) (ringSize : RingId → Nat) (rx : FlowsReceiver) :
    Option FlowsReceiver :=
  match rx.commands with
  | [] => none
  | c :: cs => { rx with commands := cs }.handle now ringSize c

/-- The end of a silence writer at a closing tick: at most one a tick. -/
def closeSilence (rx : FlowsReceiver) (ts : Clock) : FlowsReceiver :=
  match rx.silenceWriters.reverse.findIdx? (fun sw => wrappedDiff ts sw.endTimestamp ≥ 0) with
  | none => rx
  | some i =>
      { rx with
        silenceWriters := swapRemove rx.silenceWriters (rx.silenceWriters.length - 1 - i) }

/-! ## What a command does -/

theorem takeSink_fst (rx : FlowsReceiver) (sink : RingId) : (rx.takeSink sink).1 = sink := by
  unfold takeSink
  split <;> rfl

/-- What a command that does not panic has done: something in one place, or
nothing if there is no such socket, slot or sink. -/
inductive Handled (now : Option Clock) (ringSize : RingId → Nat) (rx : FlowsReceiver) :
    RxCommand → FlowsReceiver → Prop
  | added {index : Nat} {socket : RxSocket} (hindex : index < rx.sockets.length) :
      Handled now ringSize rx (.addSocket index socket)
        { rx with sockets := rx.sockets.set index (some socket) }
  | removed {index : Nat} {socket : RxSocket} (hsocket : rx.sockets[index]?.join = some socket) :
      Handled now ringSize rx (.removeSocket index)
        { rx with sockets := rx.sockets.set index none }
  | notConnected {index c : Nat} {sink : RingId}
      (hmiss : ∀ socket, rx.sockets[index]?.join = some socket → socket.channels.length ≤ c) :
      Handled now ringSize rx (.connectChannel index c sink) rx
  | connected {index c : Nat} {sink : RingId} {socket socket' : RxSocket}
      (hsocket : rx.sockets[index]?.join = some socket) (hc : c < socket.channels.length)
      (hpush : pushSink socket c sink
        (BitVec.ofNat 64 socket.latencySamples - rx.startTimestamp.getD 0) = some socket') :
      Handled now ringSize rx (.connectChannel index c sink)
        { rx with
          sockets := rx.sockets.set index (some socket')
          silenceWriters := (rx.takeSink sink).2 }
  | notDisconnected {index c : Nat} {rbShared : RingId}
      (hmiss : ∀ socket ch, rx.sockets[index]?.join = some socket →
        socket.channels[c]?.join = some ch → rbShared ∉ ch.sinks) :
      Handled now ringSize rx (.disconnectChannel index c rbShared) rx
  | disconnected {index c i : Nat} {rbShared : RingId} {socket : RxSocket} {ch : RxChannel RingId}
      (hsocket : rx.sockets[index]?.join = some socket)
      (hch : socket.channels[c]?.join = some ch)
      (hi : ch.sinks.findIdx? (· = rbShared) = some i) :
      Handled now ringSize rx (.disconnectChannel index c rbShared)
        { rx with
          sockets := rx.sockets.set index (some { socket with
            channels := socket.channels.set c (some { ch with sinks := swapRemove ch.sinks i }) })
          silenceWriters := rx.silenceWriters ++ now.toList.map fun now =>
            ⟨rbShared, now + BitVec.ofNat 64 (ringSize rbShared + ringSize rbShared / 2) +
              ch.timestampShift⟩ }

theorem handled_of_handle {now : Option Clock} {ringSize : RingId → Nat} {rx rx' : FlowsReceiver}
    {c : RxCommand} (h : rx.handle now ringSize c = some rx') : Handled now ringSize rx c rx' := by
  cases c with
  | addSocket index socket =>
      rw [handle] at h
      split at h
      · next hindex =>
          cases h
          exact .added hindex
      · cases h
  | removeSocket index =>
      rw [handle] at h
      split at h
      · cases h
      · next socket hsocket =>
          cases h
          exact .removed hsocket
  | connectChannel index c sink =>
      rw [handle] at h
      split at h
      · next hnone =>
          cases h
          exact .notConnected fun socket hsocket => by simp [hnone] at hsocket
      next socket hsocket =>
      split at h
      · next hge =>
          cases h
          refine .notConnected fun socket' hsocket' => ?_
          cases hsocket.symm.trans hsocket'
          exact hge
      · next hlt =>
          have htake : rx.takeSink sink = (sink, (rx.takeSink sink).2) :=
            Prod.ext (rx.takeSink_fst sink) rfl
          rw [htake] at h
          obtain ⟨socket', hpush, h⟩ := Option.bind_eq_some_iff.mp h
          cases h
          exact .connected hsocket (Nat.not_le.mp hlt) hpush
  | disconnectChannel index c rbShared =>
      rw [handle] at h
      split at h
      · next hnone =>
          cases h
          exact .notDisconnected fun socket ch hsocket => by simp [hnone] at hsocket
      next socket hsocket =>
      split at h
      · next hnone =>
          cases h
          refine .notDisconnected fun socket' ch hsocket' hch => ?_
          cases hsocket.symm.trans hsocket'
          simp [hnone] at hch
      next ch hch =>
      split at h
      · next hnone =>
          cases h
          refine .notDisconnected fun socket' ch' hsocket' hch' hmem => ?_
          cases hsocket.symm.trans hsocket'
          cases hch.symm.trans hch'
          simpa using List.findIdx?_eq_none_iff.mp hnone rbShared hmem
      · next i hi =>
          cases h
          exact .disconnected hsocket hch hi

end FlowsReceiver

end Inferno
