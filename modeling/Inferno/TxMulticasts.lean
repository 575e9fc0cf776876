import Inferno.FlowsControl
import Inferno.Lib.ReverseIndex
import Inferno.ResolveSubscriptions
import Inferno.TxTables

/-!
# Multicast bundles of the transmitter

`TransmitMulticasts`: a bundle is created with a silent multicast flow and a
spawned task that waits for mDNS to tell whether the address is taken, then
activates the flow and advertises the bundle, or tries another address. The
task holds copies of the index, the channels and the address; what it does
under the lock of `flows_tx` is one step (`complete`). Creating and deleting
are one step each. A panic ends the step where it happens and leaves what was
done so far.

The server creates in two steps, as it checks the index under a lock it then
gives back; in between it does nothing else.
-/

namespace Inferno

def FPP_MAX_ADVERTISED : Nat := 32

def MEDIA_PORT : BitVec 16 := 4321

/-- Where an `AtomicU32` of a bundle lives. -/
abbrev Cell := Nat

/-- `Bundle`; the address is 0 until the bundle is activated. -/
structure Bundle where
  localChannelIndices : List (Option Nat)
  dstAddr : Cell
deriving DecidableEq

/-- What a spawned task holds. -/
structure GraceTask where
  flowIndex : Nat
  channelIndices : List (Option Nat)
  dstAddrArc : Cell
  dstAddr : BitVec 32
  dstPort : BitVec 16
deriving DecidableEq

/-- A `_netaudio-bund` service of the mDNS responder. -/
structure BundleService where
  channelsPerFlow : Nat
  fpp : Nat
  dstAddr : BitVec 32
  dstPort : BitVec 16
deriving DecidableEq

/-- `SavedMulticastTXFlow`. -/
structure SavedMulticastTXFlow where
  flowId : Nat
  dstAddr : BitVec 32
  localChannelIds : List Nat

/-- The channels of a saved flow. -/
def SavedMulticastTXFlow.channelIndices (saved : SavedMulticastTXFlow) : List (Option Nat) :=
  saved.localChannelIds.map fun id => if id = 0 then none else some (id - 1)

/-- The part of `DeviceInfo` that is read here. -/
structure MulticastDevice where
  bitsPerSample : Nat
  txChannels : Nat

/-- `TransmitMulticasts` with what it shares: the transmitter with its thread,
the services by bundle id, the cells, the tasks that wait; whether the server
sees it already (`tx_multicasts` is set), and the bundle the server is about to
create, having checked that its index is free. -/
structure TransmitMulticasts where
  bundles : List (Option Bundle)
  multicastsByChannel : Nat → Option PointerToMulticast
  shouldWork : Bool
  flowsTx : Option TxTables
  services : Nat → Option BundleService
  dstAddrs : Cell → BitVec 32
  nextCell : Cell
  tasks : List GraceTask
  published : Bool
  creating : Option (Nat × List (Option Nat))
  panicked : Bool

/-- The errors of `remove_flow_internal`. -/
inductive RemoveError where
  | interrupted
  | notFound
  | tx (e : IoError)
deriving DecidableEq

/-- What adding a flow draws from outside: addresses, until one is free, and
what `FlowsTransmitter::add_flow` draws. -/
structure MulticastDraw where
  addresses : List (Byte × Byte)
  flow : AddFlowEnv

namespace FlowsTransmitter

def destinationExists (tx : FlowsTransmitter) (dst : SocketAddr) : Bool :=
  (tx.ipPortToId dst).isSome

/-- 239.255.x.y -/
def multicastAddress (bytes : Byte × Byte) : BitVec 32 := fromBeBytes 239 255 bytes.1 bytes.2

/-- `none` if all the addresses drawn so far are in use. -/
def randomMulticastDestination (tx : FlowsTransmitter) (addresses : List (Byte × Byte)) :
    Option (BitVec 32 × BitVec 16) :=
  ((addresses.map multicastAddress).find? fun ip => !tx.destinationExists ⟨ip, MEDIA_PORT⟩).map
    fun ip => (ip, MEDIA_PORT)

end FlowsTransmitter

namespace TransmitMulticasts

/-- `new`, on a transmitter just started. -/
def new (flowsTx : TxTables) : TransmitMulticasts where
  bundles := List.replicate MAX_FLOWS none
  multicastsByChannel := fun _ => none
  shouldWork := true
  flowsTx := some flowsTx
  services := fun _ => none
  dstAddrs := fun _ => 0
  nextCell := 0
  tasks := []
  published := false
  creating := none
  panicked := false

/-- The flow of a bundle. -/
def flowInfo (dstAddr : BitVec 32) (dstPort : BitVec 16) (channelIndices : List (Option Nat)) :
    FlowInfo where
  rxHostname := none
  rxFlowName := none
  dstAddr := dstAddr
  dstPort := dstPort
  localChannelIndices := channelIndices

/-- `tx.add_flow` of a bundle: what it leaves, and whether it returned. -/
def addBundleFlow (dev : MulticastDevice) (tx : FlowsTransmitter) (flowIndex : Nat)
    (info : FlowInfo) (env : AddFlowEnv) : FlowsTransmitter × Bool :=
  ((TxCall.addFlow info FPP_MAX_ADVERTISED (dev.bitsPerSample / 8) (some flowIndex) true env).leaves
      tx,
    (tx.addFlow info FPP_MAX_ADVERTISED (dev.bitsPerSample / 8) (some flowIndex) true env).isSome)

/-- `remove_tx_channel` and `add_tx_channel` index the channels of the device. -/
def canRefresh (dev : MulticastDevice) (channelIndices : List (Option Nat)) : Bool :=
  channelIndices.all fun
    | some chi => chi < dev.txChannels
    | none => true

def panic (w : TransmitMulticasts) : TransmitMulticasts := { w with panicked := true }

/-- The bundle goes into the table, and a task is spawned if it has an address. -/
def insertBundle (w : TransmitMulticasts) (flowIndex : Nat) (channelIndices : List (Option Nat))
    (dstAddr : BitVec 32) (dstPort : BitVec 16) : TransmitMulticasts :=
  { w with
    bundles := w.bundles.set flowIndex (some ⟨channelIndices, w.nextCell⟩)
    nextCell := w.nextCell + 1
    tasks :=
      if dstAddr = 0 then w.tasks
      else w.tasks ++ [⟨flowIndex, channelIndices, w.nextCell, dstAddr, dstPort⟩] }

/-- `add_flow_internal`. While no free address has been drawn it goes on
drawing: nothing has happened yet. -/
def addFlowInternal (dev : MulticastDevice) (w : TransmitMulticasts) (flowIndex : Nat)
    (channelIndices : List (Option Nat)) (preferredAddress : BitVec 32) (draw : MulticastDraw) :
    TransmitMulticasts :=
  match w.bundles[flowIndex]? with
  | some none =>
      match w.flowsTx with
      | none => w.insertBundle flowIndex channelIndices 0 0
      | some t =>
          let dst :=
            if preferredAddress = 0 then t.tx.randomMulticastDestination draw.addresses
            else some (preferredAddress, MEDIA_PORT)
          match dst with
          | none => w
          | some (dstAddr, dstPort) =>
              let info := flowInfo dstAddr dstPort channelIndices
              let (tx, returned) := addBundleFlow dev t.tx flowIndex info draw.flow
              let w := { w with flowsTx := some { t with tx := tx } }
              if returned then w.insertBundle flowIndex channelIndices dstAddr dstPort else w.panic
  | _ => w.panic

/-- The index `load_state` gives a saved flow: its own, or the first free one. -/
def loadIndex (w : TransmitMulticasts) (flowId : Nat) : Option Nat :=
  match w.bundles[flowId - 1]? with
  | some none => some (flowId - 1)
  | _ => w.bundles.findIdx? Option.isNone

/-- One flow of `load_state`. -/
def loadFlow (dev : MulticastDevice) (w : TransmitMulticasts) (saved : SavedMulticastTXFlow)
    (draw : MulticastDraw) : TransmitMulticasts :=
  if saved.flowId = 0 then w
  else
    match w.loadIndex saved.flowId with
    | some flowIndex =>
        addFlowInternal dev w flowIndex saved.channelIndices saved.dstAddr draw
    | none => w

/-- The server's checks before `add_flow`. -/
def checkCreate (w : TransmitMulticasts) (flowId : Nat) (channelIndices : List (Option Nat)) :
    TransmitMulticasts :=
  if flowId = 0 ∨ flowId > MAX_FLOWS then w
  else
    match w.flowsTx with
    | none => w
    | some t =>
        match t.tx.flowsInfo[flowId - 1]? with
        | some (some _) => w
        | _ => { w with creating := some (flowId - 1, channelIndices) }

/-- `add_flow`, after the checks. -/
def addFlow (dev : MulticastDevice) (w : TransmitMulticasts) (draw : MulticastDraw) :
    TransmitMulticasts :=
  match w.creating with
  | some (flowIndex, channelIndices) =>
      addFlowInternal dev { w with creating := none } flowIndex channelIndices 0 draw
  | none => w

/-- No conflict: the bundle is entered, advertised and activated. -/
def activate (dev : MulticastDevice) (w : TransmitMulticasts) (t : TxTables) (task : GraceTask) :
    TransmitMulticasts :=
  let w := { w with
    dstAddrs := Function.update w.dstAddrs task.dstAddrArc task.dstAddr
    multicastsByChannel := ReverseIndex.insertAll
      (fun channelInBundle => ⟨"", task.flowIndex + 1, channelInBundle⟩)
      w.multicastsByChannel task.channelIndices
    services := Function.update w.services (task.flowIndex + 1)
      (some ⟨task.channelIndices.length, FPP_MAX_ADVERTISED, task.dstAddr, task.dstPort⟩) }
  match t.tx.activateMulticastFlow task.flowIndex with
  | some tx =>
      let w := { w with flowsTx := some { t with tx := tx } }
      if canRefresh dev task.channelIndices then w else w.panic
  | none => w.panic

/-- A conflict: the flow is removed and added again at another address. `none`
while no free one has been drawn. -/
def retry (dev : MulticastDevice) (w : TransmitMulticasts) (t : TxTables) (k : Nat)
    (task : GraceTask) (draw : MulticastDraw) : Option TransmitMulticasts :=
  let ended := { w with tasks := w.tasks.eraseIdx k }
  match t.tx.removeMulticastFlow task.flowIndex with
  | none =>
      let tx := (TxCall.removeMulticastFlow task.flowIndex).leaves t.tx
      some { ended with flowsTx := some { t with tx := tx } }.panic
  | some (tx, _) =>
      (tx.randomMulticastDestination draw.addresses).map fun (dstAddr, dstPort) =>
        let info := flowInfo dstAddr dstPort task.channelIndices
        let (tx, returned) := addBundleFlow dev tx task.flowIndex info draw.flow
        if returned then
          { w with
            flowsTx := some { t with tx := tx }
            tasks := w.tasks.set k { task with dstAddr := dstAddr, dstPort := dstPort } }
        else { ended with flowsTx := some { t with tx := tx } }.panic

/-- What a task does under the lock, `ok` if mDNS knew of no conflict. -/
def complete (dev : MulticastDevice) (w : TransmitMulticasts) (k : Nat) (ok : Bool)
    (draw : MulticastDraw) : TransmitMulticasts :=
  match w.tasks[k]? with
  | none => w
  | some task =>
      let ended := { w with tasks := w.tasks.eraseIdx k }
      match w.flowsTx with
      | none => ended
      | some t =>
          if w.shouldWork then
            if ok then activate dev ended t task
            else (retry dev w t k task draw).getD w
          else ended

/-- What is left to do for a bundle that was taken out of the table. -/
def removeBundle (dev : MulticastDevice) (w : TransmitMulticasts) (t : TxTables) (flowIndex : Nat)
    (bundle : Bundle) : TransmitMulticasts × Except RemoveError Unit :=
  let w := { w with
    services :=
      if w.dstAddrs bundle.dstAddr = 0 then w.services
      else Function.update w.services (flowIndex + 1) none }
  match t.tx.removeMulticastFlow flowIndex with
  | none =>
      let tx := (TxCall.removeMulticastFlow flowIndex).leaves t.tx
      ({ w with flowsTx := some { t with tx := tx } }.panic, .ok ())
  | some (tx, result) =>
      let w := { w with
        flowsTx := some { t with tx := tx }
        multicastsByChannel :=
          ReverseIndex.eraseAll w.multicastsByChannel bundle.localChannelIndices }
      (if canRefresh dev bundle.localChannelIndices then w else w.panic, result.mapError .tx)

/-- `remove_flow_internal`; the result is of no interest after a panic. -/
def removeFlowInternal (dev : MulticastDevice) (w : TransmitMulticasts) (flowIndex : Nat)
    (ignoreNonexisting : Bool) : TransmitMulticasts × Except RemoveError Unit :=
  match w.bundles[flowIndex]? with
  | none => (w.panic, .ok ())
  | some none => (w, if ignoreNonexisting then .ok () else .error .notFound)
  | some (some bundle) =>
      let w := { w with bundles := w.bundles.set flowIndex none }
      match w.flowsTx with
      | none => (w, .error .interrupted)
      | some t =>
          if w.shouldWork then removeBundle dev w t flowIndex bundle
          else (w, .error .interrupted)

/-- `remove_flow`. -/
def removeFlow (dev : MulticastDevice) (w : TransmitMulticasts) (flowIndex : Nat) :
    TransmitMulticasts :=
  (removeFlowInternal dev w flowIndex false).1

/-- `shutdown`, of the one taken out of `tx_multicasts`. -/
def shutdown (dev : MulticastDevice) (w : TransmitMulticasts) : TransmitMulticasts :=
  (List.range MAX_FLOWS).foldl (fun w i => (removeFlowInternal dev w i true).1)
    { w with shouldWork := false, published := false }

end TransmitMulticasts

/-- A call for a unicast flow: a flow of a receiver, or one restored. -/
inductive UnicastCall where
  | addFlow (rxHostname : String) (rxFlowName : Option String) (dst : SocketAddr)
      (channelIndices : List (Option Nat)) (fpp bytesPerSample : Nat) (env : AddFlowEnv)
  | removeFlow (handle : FlowHandle)
  | setChannels (handle : FlowHandle) (channelIndices : List (Option Nat))

def UnicastCall.call : UnicastCall → TxCall
  | .addFlow rxHostname rxFlowName dst channelIndices fpp bytesPerSample env =>
      .addFlow ⟨some rxHostname, rxFlowName, dst.ip, dst.port, channelIndices⟩ fpp bytesPerSample
        none false env
  | .removeFlow handle => .removeFlow handle
  | .setChannels handle channelIndices => .setChannels handle channelIndices

/-- What happens next. -/
inductive MulticastEvent where
  /-- A saved bundle is loaded, before the server sees the bundles. -/
  | load (saved : SavedMulticastTXFlow) (draw : MulticastDraw)
  | publish
  /-- The server checks a request to create, or creates what it has checked. -/
  | check (flowId : Nat) (channelIndices : List (Option Nat))
  | create (draw : MulticastDraw)
  | delete (flowIndex : Nat)
  /-- A task has its two answers of mDNS and runs. -/
  | grace (k : Nat) (used₁ used₂ : Option Bool) (draw : MulticastDraw)
  | unicast (c : UnicastCall)
  /-- The transmitting thread takes a command, or finds a flow expired. -/
  | drain (now : Option Clock)
  | expire (slot : Nat)
  | shutdown
  /-- The transmitter is dropped, after a shutdown. -/
  | stop

namespace TransmitMulticasts

def onTables (w : TransmitMulticasts) (e : TxTablesEvent) (sampleRate : BitVec 32) :
    TransmitMulticasts :=
  { w with flowsTx := w.flowsTx.map fun t => t.step sampleRate e }

def step (dev : MulticastDevice) (sampleRate : BitVec 32) (w : TransmitMulticasts) :
    MulticastEvent → TransmitMulticasts
  | .load saved draw => if w.published then w else w.loadFlow dev saved draw
  | .publish => if w.shouldWork then { w with published := true } else w
  | .check flowId channelIndices =>
      if w.published && w.creating.isNone then w.checkCreate flowId channelIndices else w
  | .create draw => if w.published then w.addFlow dev draw else { w with creating := none }
  | .delete flowIndex =>
      if w.published && w.creating.isNone then w.removeFlow dev flowIndex else w
  | .grace k used₁ used₂ draw => w.complete dev k (!used₁.getD true && !used₂.getD true) draw
  | .unicast c => w.onTables (.call c.call) sampleRate
  | .drain now => w.onTables (.drain now) sampleRate
  | .expire slot => w.onTables (.expire slot) sampleRate
  | .shutdown => if w.published then w.shutdown dev else w
  | .stop => if w.shouldWork then w else { w with flowsTx := none }

def run (dev : MulticastDevice) (sampleRate : BitVec 32) (w : TransmitMulticasts)
    (events : List MulticastEvent) : TransmitMulticasts :=
  events.foldl (step dev sampleRate) w

end TransmitMulticasts

end Inferno
