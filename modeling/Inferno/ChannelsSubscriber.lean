import Inferno.ChannelsBuffering
import Inferno.FlowsTransmitter

/-!
# The subscriber

`ChannelsSubscriber` and its worker `ChannelsSubscriberInternal`: which
transmitter channel each local channel is subscribed to, the receive flows and
who uses their slots. The worker takes commands, resolves subscriptions (the
planning is in `ResolveSubscriptions`) and scans the flows. A panic is `none`.

`subscriptions_info` is shared with the clients and part of the worker's state
here. Tasks are appended to `spawned` in the order they are handed to
`tokio::spawn`; who runs them is another matter. Notifications and the saved
state are left out: nothing reads them back.
-/

namespace Inferno

/-- `SubscriptionStatus`. -/
inductive SubscriptionStatus where
  | unresolved
  | inProgress
  | tooManyTxFlows
  | txFail
  | receivingUnicast
  | receivingMulticast
deriving DecidableEq

/-- `SubscriptionInfo`. -/
structure SubscriptionInfo where
  txChannelName : String
  txHostname : String
  status : SubscriptionStatus
deriving DecidableEq

/-- `Command` of the subscriber. -/
inductive SubscriberCommand where
  | shutdown
  | subscribe (localChannelIndex : Nat) (txChannelName txHostname : String)
  | unsubscribe (localChannelIndex : Nat)
  | forceRefresh
deriving DecidableEq

/-- `ChannelOtherEnd`. -/
structure ChannelOtherEnd where
  localFlowIndex : Nat
  channelInFlow : Nat
  txChannelId : BitVec 16
deriving DecidableEq

/-- `ChannelSubscription`. -/
structure ChannelSubscription where
  txChannelName : String
  txHostname : String
  remote : Option ChannelOtherEnd
deriving DecidableEq

/-- `FlowSource`. -/
inductive FlowSource where
  | unicast (controlRemoteAddr : SocketAddr) (dbcp1 : BitVec 16) (handle : Option FlowHandle)
  | multicast (bundleFullName : String)
deriving DecidableEq

/-- `Flow` of the receiving side. -/
structure RxFlow where
  localId : Nat
  source : FlowSource
  channelsRefcount : List Int
  channelsRbOutputs : List (Option RingId)
  txChannels : List (Option (BitVec 16))
  latencySamples : Nat
  needsSubscriptionInfoUpdate : Bool
  creationTime : Nat
deriving DecidableEq

namespace RxFlow

/-- `Flow::new`. -/
def new (localId : Nat) (source : FlowSource) (totalChannels : Nat)
    (txChannels : List (BitVec 16)) (latencySamples now : Nat) : RxFlow where
  localId := localId
  source := source
  channelsRefcount := List.replicate totalChannels 0
  channelsRbOutputs := List.replicate totalChannels none
  txChannels := (txChannels.map some).take totalChannels ++
    List.replicate (totalChannels - txChannels.length) none
  latencySamples := latencySamples
  needsSubscriptionInfoUpdate := true
  creationTime := now

def isUsed (flow : RxFlow) : Bool := flow.channelsRefcount.any fun rc => rc > 0

end RxFlow

/-- What the worker is configured with. -/
structure SubscriberConfig where
  buffering : Buffering
  sampleRate : Nat
  minLatencyNs : Nat
  processId : Nat
  fppOverride : Option Nat

/-- `ChannelsSubscriberInternal`; `channels` and `subscriptionsInfo` have one
length, and the number of rings made so far tells the next one. -/
structure Subscriber where
  channels : List (Option ChannelSubscription)
  flows : List (Option RxFlow)
  subscriptionsInfo : List (Option SubscriptionInfo)
  needsResolving : Bool
  resolveNow : Bool
  nextRing : Nat
  spawned : List Task

/-- `ChannelSourceUpdate`. -/
structure ChannelSourceUpdate where
  localChannelIndices : List Nat
  remote : ChannelOtherEnd
deriving DecidableEq

namespace Subscriber

/-- The worker as `ChannelsSubscriber::new` makes it. -/
def new (channelsCount : Nat) : Subscriber where
  channels := List.replicate channelsCount none
  flows := []
  subscriptionsInfo := List.replicate channelsCount none
  needsResolving := false
  resolveNow := false
  nextRing := 0
  spawned := []

/-! ## Commands -/

/-- `channels_refcount[channel_in_flow] -= 1`; a flow that is gone is logged. -/
def release (s : Subscriber) (remote : ChannelOtherEnd) : Option Subscriber :=
  match s.flows[remote.localFlowIndex]? with
  | none => none
  | some none => some s
  | some (some flow) =>
      match flow.channelsRefcount[remote.channelInFlow]? with
      | none => none
      | some rc =>
          let flow := { flow with
            channelsRefcount := flow.channelsRefcount.set remote.channelInFlow (rc - 1) }
          some { s with flows := s.flows.set remote.localFlowIndex (some flow) }

def spawn (s : Subscriber) (tasks : List Task) : Subscriber :=
  { s with spawned := s.spawned ++ tasks }

/-- `unsubscribe` of the worker. -/
def unsubscribe (cfg : SubscriberConfig) (s : Subscriber) (localChannelIndex : Nat)
    (removeFromInfo : Bool) : Option Subscriber :=
  match s.channels[localChannelIndex]? with
  | none => none
  | some none => some s
  | some (some subscription) =>
      (match subscription.remote with
      | none => some s
      | some remote =>
          (s.spawn (cfg.buffering.disconnectChannel localChannelIndex remote.localFlowIndex
            remote.channelInFlow)).release remote).map fun (s : Subscriber) =>
        let s := { s with channels := s.channels.set localChannelIndex none }
        if removeFromInfo then
          { s with subscriptionsInfo := s.subscriptionsInfo.set localChannelIndex none }
        else s

/-- `subscribe` of the worker. -/
def subscribe (cfg : SubscriberConfig) (s : Subscriber) (localChannelIndex : Nat)
    (txChannelName txHostname : String) : Option Subscriber :=
  match s.channels[localChannelIndex]? with
  | none => none
  | some channel =>
      (if channel.isSome then s.unsubscribe cfg localChannelIndex false else some s).map fun s =>
        { s with
          channels := s.channels.set localChannelIndex (some ⟨txChannelName, txHostname, none⟩)
          needsResolving := true
          resolveNow := true }

/-- `handle_command`; `none` inside is the end of the worker's loop. -/
def handleCommand (cfg : SubscriberConfig) (s : Subscriber) :
    SubscriberCommand → Option (Option Subscriber)
  | .shutdown => some none
  | .subscribe ch txChannelName txHostname =>
      (s.subscribe cfg ch txChannelName txHostname).map some
  | .unsubscribe ch => (s.unsubscribe cfg ch true).map some
  | .forceRefresh => some (some s)

/-- `SavedChannelState`, without the name that is only written. -/
structure SavedChannelState where
  localChannelId : BitVec 16
  txChannelName : String
  txHostname : String

/-- `load_state`, from the saved channels; those out of range are passed over. -/
def loadState (cfg : SubscriberConfig) (s : Subscriber) : List SavedChannelState → Option Subscriber
  | [] => some s
  | chst :: rest =>
      let lci := (chst.localChannelId.setWidth 64 - 1 : Usize).toNat
      if lci ≥ s.channels.length then s.loadState cfg rest
      else
        let info := some ⟨chst.txChannelName, chst.txHostname, .unresolved⟩
        let s := { s with subscriptionsInfo := s.subscriptionsInfo.set lci info }
        (s.subscribe cfg lci chst.txChannelName chst.txHostname).bind fun s => s.loadState cfg rest

/-! ## Updates -/

/-- One local channel of an update; a slot out of the flow's range is logged. -/
def connect (cfg : SubscriberConfig) (now : Clock) (remote : ChannelOtherEnd) (s : Subscriber)
    (chi : Nat) : Option Subscriber := do
  let subscription ← s.channels[chi]?.join
  let flow ← s.flows[remote.localFlowIndex]?.join
  if remote.channelInFlow ≥ flow.txChannels.length then some s
  else do
    let rc ← flow.channelsRefcount[remote.channelInFlow]?
    let rbOutput ← flow.channelsRbOutputs[remote.channelInFlow]?
    let (rbOutput, sink, tasks) := cfg.buffering.connectChannel (.owned s.nextRing now) rbOutput chi
      flow.latencySamples
    let flow := { flow with
      txChannels := flow.txChannels.set remote.channelInFlow (some remote.txChannelId)
      channelsRefcount := flow.channelsRefcount.set remote.channelInFlow (rc + 1)
      channelsRbOutputs := flow.channelsRbOutputs.set remote.channelInFlow rbOutput }
    let sinkTasks := sink.toList.map
      (.receiverConnect remote.localFlowIndex remote.channelInFlow chi ·)
    some { s with
      flows := s.flows.set remote.localFlowIndex (some flow)
      channels := s.channels.set chi (some { subscription with remote := some remote })
      subscriptionsInfo := s.subscriptionsInfo.set chi
        (some ⟨subscription.txChannelName, subscription.txHostname, .inProgress⟩)
      nextRing := s.nextRing + 1
      spawned := s.spawned ++ tasks ++ sinkTasks }

/-- One update; its first channel is looked up for the log. -/
def applyUpdate (cfg : SubscriberConfig) (now : Clock) (s : Subscriber)
    (upd : ChannelSourceUpdate) : Option Subscriber :=
  match upd.localChannelIndices with
  | [] => none
  | firstIndex :: _ =>
      if firstIndex < s.channels.length then
        upd.localChannelIndices.foldlM (connect cfg now upd.remote) s
      else none

def setStatus (s : Subscriber) (chi : Nat) (status : SubscriptionStatus) : Subscriber :=
  { s with
    subscriptionsInfo := s.subscriptionsInfo.modify chi (Option.map ({ · with status := status })) }

/-- `subinfos[chi].as_mut().unwrap().status = TxFail`, while the lock is held. -/
def txFail (s : Subscriber) (chi : Nat) : Option Subscriber :=
  match s.subscriptionsInfo[chi]?.join with
  | some _ => some (s.setStatus chi .txFail)
  | none => none

/-! ## The scan of the flows -/

/-- What the scan reads: when each flow has last received a packet, and the
two bounds from the clock. -/
structure ScanEnv where
  lastPacketTime : Nat → Nat
  minLastPacketTime : Nat
  minFlowCreationTime : Nat

/-- `stop_flow` and then `remove_socket` for a unicast flow. -/
structure DestroyFlow where
  controlRemoteAddr : SocketAddr
  dbcp1 : BitVec 16
  handle : FlowHandle
  flowIndex : Nat
deriving DecidableEq

/-- The slot of a flow that a channel is connected to. -/
def slotIn (s : Subscriber) (flowIndex chi : Nat) : Option Nat :=
  ((s.channels[chi]?.join.bind ChannelSubscription.remote).filter
    (·.localFlowIndex = flowIndex)).map ChannelOtherEnd.channelInFlow

/-- A channel of a flow that has timed out is orphaned. -/
def orphan (cfg : SubscriberConfig) (flowIndex : Nat) (s : Subscriber) (chi : Nat) : Subscriber :=
  match s.slotIn flowIndex chi with
  | none => s
  | some channelInFlow =>
      { s.setStatus chi .unresolved with
        channels := s.channels.modify chi (Option.map ({ · with remote := none }))
        needsResolving := true
        resolveNow := true
        spawned := s.spawned ++ cfg.buffering.disconnectChannel chi flowIndex channelInFlow }

def markReceiving (flowIndex : Nat) (source : FlowSource) (s : Subscriber) (chi : Nat) :
    Subscriber :=
  match s.slotIn flowIndex chi with
  | none => s
  | some _ =>
      s.setStatus chi (match source with
        | .unicast .. => .receivingUnicast
        | .multicast _ => .receivingMulticast)

/-- A flow in use that has not received for long, and is old enough. -/
def timedOut (env : ScanEnv) (flowIndex : Nat) (flow : RxFlow) : Bool :=
  flow.isUsed && env.lastPacketTime flowIndex < env.minLastPacketTime &&
    flow.creationTime < env.minFlowCreationTime

/-- The statuses of a flow's channels. -/
def scanChannels (cfg : SubscriberConfig) (env : ScanEnv) (s : Subscriber) (flowIndex : Nat)
    (flow : RxFlow) : Subscriber :=
  if timedOut env flowIndex flow then (List.range s.channels.length).foldl (orphan cfg flowIndex) s
  else if flow.isUsed && flow.needsSubscriptionInfoUpdate &&
      !(env.lastPacketTime flowIndex < env.minLastPacketTime) then
    (List.range s.channels.length).foldl (markReceiving flowIndex flow.source) s
  else s

/-- Whether the scan removes a flow. -/
def isRemoved (env : ScanEnv) (flowIndex : Nat) (flow : RxFlow) : Bool :=
  timedOut env flowIndex flow || !flow.isUsed

/-- One flow of the scan: what there is to destroy. A unicast flow that was
never granted has no handle to unwrap. -/
def scanFlow (cfg : SubscriberConfig) (env : ScanEnv) (s : Subscriber) (flowIndex : Nat)
    (flow : RxFlow) : Option (Subscriber × List DestroyFlow) :=
  let s := s.scanChannels cfg env flowIndex flow
  if isRemoved env flowIndex flow then
    match flow.source with
    | .unicast _ _ none => none
    | .unicast addr dbcp1 (some handle) => some (s, [⟨addr, dbcp1, handle, flowIndex⟩])
    | .multicast _ => some (s.spawn [.removeSocket flowIndex], [])
  else some (s, [])

/-- The flows from an index on; the table changes after the loop. -/
def scanLoop (cfg : SubscriberConfig) (env : ScanEnv) (s : Subscriber) :
    Nat → List (Option RxFlow) → Option (Subscriber × List DestroyFlow)
  | _, [] => some (s, [])
  | flowIndex, none :: flows => scanLoop cfg env s (flowIndex + 1) flows
  | flowIndex, some flow :: flows => do
      let (s, destroy) ← s.scanFlow cfg env flowIndex flow
      let (s, rest) ← scanLoop cfg env s (flowIndex + 1) flows
      some (s, destroy ++ rest)

/-- `scan_flows` up to its awaits. -/
def scanFlows (cfg : SubscriberConfig) (env : ScanEnv) (s : Subscriber) :
    Option (Subscriber × List DestroyFlow) := do
  let (s, destroy) ← s.scanLoop cfg env 0 s.flows
  let flows := s.flows.mapIdx fun flowIndex flow => flow.filter (!isRemoved env flowIndex ·)
  some ({ s with flows := flows }, destroy)

end Subscriber

end Inferno
