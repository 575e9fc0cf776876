import Inferno.ChannelsSubscriber
import Inferno.Lib.SortedMap
import Mathlib.Data.String.Basic

/-!
# Planning a resolution

The first part of `resolve_subscriptions`: from the channels that nobody
serves and the answers of mDNS to the updates that need no request and the
futures that make requests, with the flows these are for already in the table.
A panic is `none`.

What comes from outside is in a `ResolveEnv`: the answer for each local channel
and each bundle, which multicast sockets could be bound and joined, and the
clock. Maps that are iterated are in key order.
-/

namespace Inferno

instance : LinearOrder SocketAddr :=
  LinearOrder.lift' (fun a => a.ip.toNat * 2 ^ 16 + a.port.toNat) fun a b h => by
    obtain ⟨ip, port⟩ := a
    obtain ⟨ip', port'⟩ := b
    have hport := port.isLt
    have hport' := port'.isLt
    simp only at h
    have h1 : ip = ip' := BitVec.eq_of_toNat_eq (by omega)
    have h2 : port = port' := BitVec.eq_of_toNat_eq (by omega)
    rw [h1, h2]

/-- `PointerToMulticast`. -/
structure PointerToMulticast where
  txHostname : String
  bundleId : Nat
  channelInBundle : Nat
deriving DecidableEq

/-- `AdvertisedChannel`. -/
structure AdvertisedChannel where
  addr : SocketAddr
  txChannelsPerFlow : Nat
  txChannelId : BitVec 16
  bitsPerSample : Nat
  dbcp1 : BitVec 16
  fppMin : Nat
  fppMax : Nat
  minRxLatencyNs : Nat
  multicast : Option PointerToMulticast
deriving DecidableEq

/-- `AdvertisedBundle`, as far as it is read. -/
structure AdvertisedBundle where
  txChannelsPerFlow : Nat
  bitsPerSample : Nat
  minRxLatencyNs : Nat
  mediaAddr : SocketAddr
deriving DecidableEq

/-- What a resolution hears from outside. -/
structure ResolveEnv where
  queryChan : Nat → Option AdvertisedChannel
  queryBund : String → Option AdvertisedBundle
  socketOk : String → Bool
  elapsed : Nat → Nat

/-- A future: a request, and the updates it leads to. -/
inductive Job where
  | updateFlow (serverAddr : SocketAddr) (dbcp1 : BitVec 16) (handle : FlowHandle)
      (newTxChannels : List (Option (BitVec 16))) (updates : List ChannelSourceUpdate)
  | addMulticast (flowIndex : Nat) (advbundle : AdvertisedBundle) (latencySamples : Nat)
      (updates : List ChannelSourceUpdate)
  | requestFlow (flowIndex : Nat) (first : AdvertisedChannel)
      (txChannels : List (Option (BitVec 16))) (flowName : String) (latencySamples : Nat)
      (updates : List ChannelSourceUpdate)
deriving DecidableEq

namespace Job

def updates : Job → List ChannelSourceUpdate
  | .updateFlow _ _ _ _ updates => updates
  | .addMulticast _ _ _ updates => updates
  | .requestFlow _ _ _ _ _ updates => updates

end Job

/-- Channels advertised by one server, or in one bundle, by local index. -/
abbrev ChannelMap := SortedMap Nat AdvertisedChannel

/-- The state of the planning. -/
structure Plan where
  flows : List (Option RxFlow)
  channelsPerServer : SortedMap SocketAddr ChannelMap
  channelsPerBundle : SortedMap String ChannelMap
  bundles : SortedMap String AdvertisedBundle
  freeSlots : SortedMap SocketAddr (SortedMap Nat (List Nat))
  resolved : List ChannelSourceUpdate
  futures : SortedMap SocketAddr (List Job)

/-! ## Which channels -/

/-- Channels with a subscription that nobody serves. -/
def neededChannelIndices (channels : List (Option ChannelSubscription)) : List Nat :=
  (List.range channels.length).filter fun i =>
    channels[i]?.join.any fun sub => sub.remote.isNone

/-- The host and the name a channel is subscribed to. -/
def wanted (channels : List (Option ChannelSubscription)) (i : Nat) : Option (String × String) :=
  channels[i]?.join.map fun sub => (sub.txHostname, sub.txChannelName)

/-- `channel_index_aliases`: looking up a channel that is not a key panics. -/
abbrev Aliases := Nat → Option (List Nat)

/-- `channel_index_aliases.entry(i).or_default().push(ch)`. -/
def Aliases.push (aliases : Aliases) (i ch : Nat) : Aliases :=
  Function.update aliases i (some ((aliases i).getD [] ++ [ch]))

/-- Keeps one of the channels connected to the same transmitter channel. -/
def dealias (channels : List (Option ChannelSubscription)) :
    List Nat → (String × String → Option Nat) → Aliases → Option (List Nat × Aliases)
  | [], _, aliases => some ([], aliases)
  | ch :: rest, aliasMap, aliases => do
      let key ← wanted channels ch
      match aliasMap key with
      | some existing => dealias channels rest aliasMap (aliases.push existing ch)
      | none =>
          -- the assertion of the code
          if (aliases ch).isSome then none
          else do
            let (kept, aliases) ← dealias channels rest (Function.update aliasMap key (some ch))
              (aliases.push ch ch)
            some (ch :: kept, aliases)

/-- Where a channel of the same host and name is connected already. -/
def connectedTo (channels : List (Option ChannelSubscription)) (key : String × String) :
    Option ChannelOtherEnd :=
  (channels.filterMap id).findSome? fun chsub =>
    if (chsub.txHostname, chsub.txChannelName) = key then chsub.remote else none

/-- Splits off the channels that can share a connection. -/
def reuseConnected (channels : List (Option ChannelSubscription)) (aliases : Aliases) :
    List Nat → Option (List Nat × List ChannelSourceUpdate)
  | [] => some ([], [])
  | ch :: rest => do
      let key ← wanted channels ch
      let (kept, resolved) ← reuseConnected channels aliases rest
      match connectedTo channels key with
      | some remote => do
          let indices ← aliases ch
          some (kept, ⟨indices, remote⟩ :: resolved)
      | none => some (ch :: kept, resolved)

/-! ## Who advertises them -/

/-- `format!("{}@{}", mcast.bundle_id, mcast.tx_hostname)`. -/
def bundleName (mcast : PointerToMulticast) : String :=
  toString mcast.bundleId ++ "@" ++ mcast.txHostname

/-- One answer of mDNS. -/
def Plan.addAnswer (p : Plan) (lci : Nat) : Option AdvertisedChannel → Plan
  | none => p
  | some advserv =>
      match advserv.multicast with
      | none =>
          { p with channelsPerServer :=
              p.channelsPerServer.alter advserv.addr fun m => (m.getD .empty).insert lci advserv }
      | some mcast =>
          { p with channelsPerBundle :=
              p.channelsPerBundle.alter (bundleName mcast) fun m =>
                (m.getD .empty).insert lci advserv }

/-- `.unique().count() == 1`. -/
def allSame {β : Type} [DecidableEq β] (l : List β) : Bool := l.dedup.length == 1

/-- A server whose channels agree. -/
def isGoodServer (channels : ChannelMap) : Bool :=
  let advs := channels.entries.map Prod.snd
  allSame (advs.map (·.txChannelsPerFlow)) && allSame (advs.map (·.bitsPerSample)) &&
    allSame (advs.map (·.dbcp1))

/-- The plan before the flows are looked at. -/
def Plan.begin (env : ResolveEnv) (flows : List (Option RxFlow))
    (needed : List Nat) (resolved : List ChannelSourceUpdate) : Plan :=
  let start : Plan := ⟨flows, .empty, .empty, .empty, .empty, resolved, .empty⟩
  let p := needed.foldl (fun p lci => p.addAnswer lci (env.queryChan lci)) start
  { p with
    channelsPerServer := p.channelsPerServer.filter fun _ channels => isGoodServer channels
    bundles := p.channelsPerBundle.filterMap fun name _ => env.queryBund name }

/-! ## Flows there are -/

/-- The channels that a unicast flow carries already. -/
def findInFlow (aliases : Aliases) (flowIndex : Nat) (flow : RxFlow) :
    List (Nat × AdvertisedChannel) → Option (List ChannelSourceUpdate)
  | [] => some []
  | (lci, advch) :: rest => do
      let found ← findInFlow aliases flowIndex flow rest
      match flow.txChannels.findIdx? (· = some advch.txChannelId) with
      | none => some found
      | some channelInFlow => do
          let indices ← aliases lci
          some (⟨indices, ⟨flowIndex, channelInFlow, advch.txChannelId⟩⟩ :: found)

/-- The channels of a bundle, in a flow that receives it. -/
def bundleUpdates (aliases : Aliases) (flowIndex : Nat) :
    List (Nat × AdvertisedChannel) → Option (List ChannelSourceUpdate)
  | [] => some []
  | (lci, advch) :: rest => do
      let found ← bundleUpdates aliases flowIndex rest
      let mcast ← advch.multicast
      let indices ← aliases lci
      some (⟨indices, ⟨flowIndex, mcast.channelInBundle, advch.txChannelId⟩⟩ :: found)

/-- Slots that nobody uses. -/
def unusedSlots (flow : RxFlow) : List Nat :=
  (List.range flow.channelsRefcount.length).filter fun c => (flow.channelsRefcount.getD c 0) ≤ 0

/-- `update.local_channel_indices[0]` of each update. -/
def firstIndices (updates : List ChannelSourceUpdate) : Option (List Nat) :=
  updates.mapM fun upd => upd.localChannelIndices.head?

/-- A flow that is there, for the channels that may need it. -/
def Plan.useFlow (aliases : Aliases) (p : Plan) (flowIndex : Nat) (flow : RxFlow) : Option Plan :=
  match flow.source with
  | .unicast addr _ _ =>
      match p.channelsPerServer.get? addr with
      | none => some p
      | some channels => do
          let updates ← findInFlow aliases flowIndex flow channels.entries
          let found ← firstIndices updates
          -- a flow is visited once, so its set of free slots is new
          let free := (unusedSlots flow).filter fun c =>
            !updates.any fun upd => upd.remote.channelInFlow == c
          some { p with
            channelsPerServer := p.channelsPerServer.insert addr
              (channels.filter fun lci _ => !found.contains lci)
            freeSlots := p.freeSlots.alter addr fun m => (m.getD .empty).insert flowIndex free
            resolved := p.resolved ++ updates }
  | .multicast name =>
      match p.channelsPerBundle.get? name with
      | none => some p
      | some channels => do
          let updates ← bundleUpdates aliases flowIndex channels.entries
          some { p with bundles := p.bundles.erase name, resolved := p.resolved ++ updates }

def Plan.useFlows (aliases : Aliases) (p : Plan) : Nat → List (Option RxFlow) → Option Plan
  | _, [] => some p
  | flowIndex, none :: flows => p.useFlows aliases (flowIndex + 1) flows
  | flowIndex, some flow :: flows => do
      let p ← p.useFlow aliases flowIndex flow
      p.useFlows aliases (flowIndex + 1) flows

/-! ## Free slots -/

/-- The new channels of each flow, and the updates that go with them. -/
abbrev FlowChanges := SortedMap Nat (List (Option (BitVec 16)) × List ChannelSourceUpdate)

/-- Gives the channels of a server the free slots, in order; returns the
channels that are left over. -/
def assignFree (aliases : Aliases) (flows : List (Option RxFlow)) :
    List (Nat × AdvertisedChannel) → List (Nat × Nat) → FlowChanges →
      Option (List Nat × FlowChanges)
  | [], _, changes => some ([], changes)
  | (lci, _) :: rest, [], changes => do
      let (left, changes) ← assignFree aliases flows rest [] changes
      some (lci :: left, changes)
  | (lci, advch) :: rest, (flowIndex, chInFlow) :: free, changes => do
      let flow ← flows[flowIndex]?.join
      let indices ← aliases lci
      let (txChannels, _) := (changes.get? flowIndex).getD (flow.txChannels, [])
      let upd := ⟨indices, ⟨flowIndex, chInFlow, advch.txChannelId⟩⟩
      if chInFlow < txChannels.length then
        assignFree aliases flows rest free
          (changes.alter flowIndex fun entry =>
            let (txChannels, updates) := entry.getD (flow.txChannels, [])
            (txChannels.set chInFlow (some advch.txChannelId), updates ++ [upd]))
      else none

/-- The request to change one flow; it has to be unicast and granted. -/
def updateJob (flows : List (Option RxFlow)) (serverAddr : SocketAddr)
    (e : Nat × List (Option (BitVec 16)) × List ChannelSourceUpdate) : Option Job :=
  match flows[e.1]?.join.map RxFlow.source with
  | some (.unicast _ dbcp1 (some handle)) => some (.updateFlow serverAddr dbcp1 handle e.2.1 e.2.2)
  | _ => none

/-- The free slots of one server. -/
def Plan.useFree (aliases : Aliases) (p : Plan) (serverAddr : SocketAddr) (channels : ChannelMap) :
    Option Plan :=
  if channels.isEmpty then some p
  else
    match p.freeSlots.get? serverAddr with
    | none => some p
    | some freeSlots => do
        let allFreeSlots := freeSlots.entries.flatMap fun e => e.2.map fun c => (e.1, c)
        let (left, changes) ← assignFree aliases p.flows channels.entries allFreeSlots .empty
        let futures ← changes.entries.mapM (updateJob p.flows serverAddr)
        some { p with
          channelsPerServer := p.channelsPerServer.insert serverAddr
            (channels.filter fun lci _ => left.contains lci)
          futures := p.futures.insert serverAddr futures }

/-! ## New flows -/

/-- The latency in samples, as the code multiplies. -/
def latencySamplesOf (cfg : SubscriberConfig) (minRxLatencyNs : Nat) : Nat :=
  (max minRxLatencyNs cfg.minLatencyNs * cfg.sampleRate % 2 ^ 64) / 1000000000

/-- The first free index of the table, which grows if there is none. -/
def freeFlowIndex (flows : List (Option RxFlow)) : Nat := flows.findIdx Option.isNone

/-- A flow at a free index. -/
def Plan.putFlow (p : Plan) (flow : RxFlow) : Plan :=
  let flowIndex := freeFlowIndex p.flows
  { p with flows := if flowIndex < p.flows.length then p.flows.set flowIndex (some flow)
      else p.flows ++ [some flow] }

def Plan.pushFuture (p : Plan) (addr : SocketAddr) (job : Job) : Plan :=
  { p with futures := p.futures.alter addr fun jobs => jobs.getD [] ++ [job] }

/-- The flow of a bundle that is not received yet. -/
def Plan.newMulticast (cfg : SubscriberConfig) (env : ResolveEnv) (aliases : Aliases) (p : Plan)
    (e : String × AdvertisedBundle) : Option Plan :=
  let (bundleFullName, advbundle) := e
  if !env.socketOk bundleFullName then some p
  else do
    let flowIndex := freeFlowIndex p.flows
    let neededChannels ← p.channelsPerBundle.get? bundleFullName
    let flow := RxFlow.new (flowIndex + 1) (.multicast bundleFullName) advbundle.txChannelsPerFlow []
      (latencySamplesOf cfg advbundle.minRxLatencyNs) (env.elapsed flowIndex)
    let updates ← bundleUpdates aliases flowIndex neededChannels.entries
    some ((p.putFlow flow).pushFuture advbundle.mediaAddr
      (.addMulticast flowIndex advbundle flow.latencySamples updates))

/-- The slots of a new flow, in the order of the chunk. -/
def chunkUpdates (aliases : Aliases) (flowIndex : Nat) :
    Nat → List (Nat × AdvertisedChannel) → Option (List ChannelSourceUpdate)
  | _, [] => some []
  | i, (lci, chadv) :: rest => do
      let indices ← aliases lci
      let updates ← chunkUpdates aliases flowIndex (i + 1) rest
      some (⟨indices, ⟨flowIndex, i, chadv.txChannelId⟩⟩ :: updates)

/-- A new flow for one chunk of a server's channels. -/
def Plan.newFlow (cfg : SubscriberConfig) (env : ResolveEnv) (aliases : Aliases)
    (serverAddr : SocketAddr) (first : AdvertisedChannel) (numChannelsInFlow : Nat) (p : Plan)
    (chunk : List (Nat × AdvertisedChannel)) : Option Plan := do
  let flowIndex := freeFlowIndex p.flows
  let flowName := toString (flowIndex + 1) ++ "_" ++ toString cfg.processId
  let flow := RxFlow.new (flowIndex + 1) (.unicast first.addr first.dbcp1 none) numChannelsInFlow
    (chunk.map (·.2.txChannelId)) (latencySamplesOf cfg first.minRxLatencyNs) (env.elapsed flowIndex)
  let updates ← chunkUpdates aliases flowIndex 0 chunk
  some ((p.putFlow flow).pushFuture serverAddr
    (.requestFlow flowIndex first flow.txChannels flowName flow.latencySamples updates))

/-- At most so many chunks. -/
def chunksOf {β : Type} (n : Nat) : Nat → List β → List (List β)
  | 0, _ => []
  | _, [] => []
  | fuel + 1, l => l.take n :: chunksOf n fuel (l.drop n)

/-- `chunks(n)`, which panics at zero. -/
def chunks {β : Type} (n : Nat) (l : List β) : Option (List (List β)) :=
  if n = 0 then none else some (chunksOf n l.length l)

/-- The channels of a server that are left. -/
def Plan.newFlows (cfg : SubscriberConfig) (env : ResolveEnv) (aliases : Aliases)
    (rxChannels : Nat) (p : Plan) (e : SocketAddr × ChannelMap) : Option Plan :=
  match e.2.entries with
  | [] => some p
  | (_, first) :: _ => do
      let numChannelsInFlow := min (min first.txChannelsPerFlow rxChannels) 8
      let parts ← chunks numChannelsInFlow e.2.entries
      parts.foldlM (fun p chunk => p.newFlow cfg env aliases e.1 first numChannelsInFlow chunk) p

/-! ## The plan -/

/-- Everything up to the spawning of the futures. -/
def planResolve (cfg : SubscriberConfig) (env : ResolveEnv)
    (channels : List (Option ChannelSubscription)) (flows : List (Option RxFlow)) : Option Plan := do
  let (dealiased, aliases) ← dealias channels (neededChannelIndices channels) (fun _ => none)
    fun _ => none
  let (needed, resolved) ← reuseConnected channels aliases dealiased
  let p ← (Plan.begin env flows needed resolved).useFlows aliases 0 flows
  let p ← p.channelsPerServer.entries.foldlM (fun p e => p.useFree aliases e.1 e.2) p
  let p ← p.bundles.entries.foldlM (fun p e => p.newMulticast cfg env aliases e) p
  p.channelsPerServer.entries.foldlM (fun p e => p.newFlows cfg env aliases channels.length e) p

end Inferno
