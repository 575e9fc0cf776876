import Inferno.FlowsTransmit

/-!
# The control side of the transmitter

`FlowsTransmitter`: the tables of granted flows and the commands they send to
the transmitting thread through a queue. An operation runs to its end before
the next (the callers hold a lock); the thread takes commands off the other
end of the queue and sets the `expired` flags in between. A panic is `none`.

The tables agree with each other (`Tables`), and the table the thread will
have once it has drained the queue, as far as formats go (`pending`), is
occupied exactly at the live ids (`Consistent`). Each operation keeps this.
-/

namespace Inferno

/-- The six bytes a receiver names its flow by. -/
abbrev FlowHandle := List Byte

/-- `FlowData`. -/
structure FlowData where
  cookie : BitVec 16
  remote : SocketAddr
  expired : Flag

/-- `FlowInfo`. -/
structure FlowInfo where
  rxHostname : Option String
  rxFlowName : Option String
  dstAddr : BitVec 32
  dstPort : BitVec 16
  localChannelIndices : List (Option Nat)

namespace FlowInfo

def isMulticast (info : FlowInfo) : Bool := info.rxHostname.isNone && info.rxFlowName.isNone

def dst (info : FlowInfo) : SocketAddr := ⟨info.dstAddr, info.dstPort⟩

end FlowInfo

/-- `SavedTxFlow`. -/
structure SavedTxFlow where
  flowId : Nat
  channelIndices : List (Option Nat)
  multicastAddr : Option (BitVec 32)
  multicastPort : BitVec 16

/-- `FlowsTransmitter` with what it shares: the stored `tx_flows`, the queue of
commands, whether its receiver is gone, the flags and the next free one. The
keys of `flows` are below `MAX_FLOWS`: `add_flow` takes others for none. -/
structure FlowsTransmitter where
  flowSeqId : BitVec 32
  flows : Nat → Option FlowData
  ipPortToId : SocketAddr → Option Nat
  flowsInfo : List (Option FlowInfo)
  savedTxFlows : List SavedTxFlow
  commands : List TxCommand
  receiverGone : Bool
  flags : Flag → Bool
  nextFlag : Flag

/-- The kinds of `std::io::Error` the operations return; `socket` stands for
whatever binding and connecting a socket returns. -/
inductive IoError where
  | resourceBusy
  | outOfMemory
  | brokenPipe
  | notFound
  | permissionDenied
  | socket
deriving DecidableEq

/-- `split_handle`. -/
def splitHandle (h : FlowHandle) : Nat × BitVec 16 :=
  ((fromBeBytes (h.getD 0 0) (h.getD 1 0) (h.getD 2 0) (h.getD 3 0)).toNat,
    h.getD 4 0 ++ h.getD 5 0)

/-- The handle `add_flow` returns. -/
def makeHandle (flowIndex : Nat) (cookie : BitVec 16) : FlowHandle :=
  toBeBytes (BitVec.ofNat 32 flowIndex) ++ [cookie.extractLsb' 8 8, cookie.extractLsb' 0 8]

/-- What `add_flow` draws from outside: the cookie, and whether the socket
could be set up. -/
structure AddFlowEnv where
  cookie : BitVec 16
  socketOk : Bool

namespace FlowsTransmitter

/-- `start`. -/
def start (flags : Flag → Bool) : FlowsTransmitter where
  flowSeqId := 0
  flows := fun _ => none
  ipPortToId := fun _ => none
  flowsInfo := List.replicate MAX_FLOWS none
  savedTxFlows := []
  commands := []
  receiverGone := false
  flags := flags
  nextFlag := 0

/-- `commands_sender.send(..).await.unwrap()`. -/
def send (tx : FlowsTransmitter) (c : TxCommand) : Option FlowsTransmitter :=
  if tx.receiverGone then none else some { tx with commands := tx.commands ++ [c] }

/-- `save_state`: nothing is stored if a list has an entry TOML has no word for. -/
def saveState (tx : FlowsTransmitter) : FlowsTransmitter :=
  let saved := tx.flowsInfo.zipIdx.filterMap fun (info, flowId) =>
    info.map fun info =>
      { flowId := flowId + 1
        channelIndices := info.localChannelIndices
        multicastAddr := if info.isMulticast then none else some info.dstAddr
        multicastPort := info.dstPort : SavedTxFlow }
  let toSave := saved.filter fun f => !f.channelIndices.isEmpty && f.multicastAddr.isSome
  if toSave.all fun f => f.channelIndices.all Option.isSome then { tx with savedTxFlows := toSave }
  else tx

def getFlow (tx : FlowsTransmitter) (handle : FlowHandle) : Option (Nat × FlowData) :=
  let (id, cookie) := splitHandle handle
  match tx.flows id with
  | some flow => if flow.cookie = cookie then some (id, flow) else none
  | none => none

/-- The tables without the flow at `id`. -/
def forget (tx : FlowsTransmitter) (id : Nat) : FlowsTransmitter :=
  match tx.flows id with
  | some flow =>
      { tx with
        flows := Function.update tx.flows id none
        ipPortToId := Function.update tx.ipPortToId flow.remote none }
  | none => tx

def removeFlowInternal (tx : FlowsTransmitter) (id : Nat) : Option FlowsTransmitter :=
  let tx := tx.forget id
  if id < tx.flowsInfo.length then
    send { tx with flowsInfo := tx.flowsInfo.set id none } (.removeFlow id)
  else none

/-- The filter of `scan_expired`; a flow without its information is an `unwrap`
of nothing. -/
def isExpired (tx : FlowsTransmitter) (id : Nat) : Option Bool :=
  match tx.flows id with
  | none => some false
  | some flow =>
      if tx.flags flow.expired then
        match tx.flowsInfo[id]? with
        | some (some info) => some !info.isMulticast
        | _ => none
      else some false

def expiredIds (tx : FlowsTransmitter) : List Nat → Option (List Nat)
  | [] => some []
  | id :: ids => do
      let expired ← tx.isExpired id
      let rest ← tx.expiredIds ids
      some (if expired then id :: rest else rest)

def scanExpired (tx : FlowsTransmitter) : Option FlowsTransmitter := do
  let ids ← tx.expiredIds (List.range MAX_FLOWS)
  ids.foldlM removeFlowInternal tx

/-- The loop of `add_flow` that finds an index, with so many attempts left. -/
def chooseIndex (requestedFlowIndex : Option Nat) :
    Nat → FlowsTransmitter → Option (FlowsTransmitter × Except IoError Nat)
  | 0, tx => some (tx, .error .outOfMemory)
  | attempts + 1, tx =>
      match requestedFlowIndex with
      | some flowIndex =>
          if (tx.flows flowIndex).isSome then some (tx, .error .resourceBusy)
          else
            match tx.flowsInfo[flowIndex]? with
            | none => none
            | some (some _) => some (tx, .error .resourceBusy)
            | some none => some (tx, .ok flowIndex)
      | none =>
          let flowIndex := tx.flowSeqId.toNat % MAX_FLOWS
          let tx := { tx with flowSeqId := tx.flowSeqId + 1 }
          if (tx.flows flowIndex).isSome then chooseIndex none attempts tx
          else some (tx, .ok flowIndex)

/-- The end of `add_flow`. -/
def register (tx : FlowsTransmitter) (info : FlowInfo) (flowIndex : Nat) (cookie : BitVec 16) :
    FlowsTransmitter × Except IoError (Nat × FlowHandle) :=
  let tx := { tx with ipPortToId := Function.update tx.ipPortToId info.dst (some flowIndex) }
  if flowIndex ≥ tx.flowsInfo.length then (tx, .error .outOfMemory)
  else
    (saveState { tx with flowsInfo := tx.flowsInfo.set flowIndex (some info) },
      .ok (flowIndex, makeHandle flowIndex cookie))

/-- `add_flow` at a free index: the thread is told, then the tables. -/
def insertFlow (tx : FlowsTransmitter) (info : FlowInfo) (fpp bytesPerSample : Nat)
    (isMulticast : Bool) (cookie : BitVec 16) (flowIndex : Nat) :
    FlowsTransmitter × Except IoError (Nat × FlowHandle) :=
  if tx.receiverGone then (tx, .error .brokenPipe)
  else
    let flow : FlowData := { cookie := cookie, remote := info.dst, expired := tx.nextFlag }
    let c : TxCommand := .addFlow flowIndex info.dst info.localChannelIndices fpp bytesPerSample
      (!isMulticast) flow.expired
    register { tx with
      flows := Function.update tx.flows flowIndex (some flow)
      commands := tx.commands ++ [c]
      flags := Function.update tx.flags flow.expired isMulticast
      nextFlag := tx.nextFlag + 1 } info flowIndex cookie

def addFlow (tx : FlowsTransmitter) (info : FlowInfo) (fpp bytesPerSample : Nat)
    (requestedFlowIndex : Option Nat) (isMulticast : Bool) (env : AddFlowEnv) :
    Option (FlowsTransmitter × Except IoError (Nat × FlowHandle)) :=
  match tx.ipPortToId info.dst with
  | some flowIndex => do
      let tx ← tx.send (.setChannels flowIndex info.localChannelIndices)
      let flow ← tx.flows flowIndex
      some (tx.register info flowIndex flow.cookie)
  | none => do
      let tx ← tx.scanExpired
      let (tx, chosen) ← chooseIndex requestedFlowIndex (MAX_FLOWS + 1) tx
      match chosen with
      | .error e => some (tx, .error e)
      | .ok flowIndex =>
          if env.socketOk then
            some (tx.insertFlow info fpp bytesPerSample isMulticast env.cookie flowIndex)
          else some (tx, .error .socket)

def removeFlow (tx : FlowsTransmitter) (handle : FlowHandle) :
    Option (FlowsTransmitter × Except IoError Nat) :=
  match tx.getFlow handle with
  | some (id, _) => do
      let tx ← tx.removeFlowInternal id
      some (tx.saveState, .ok id)
  | none => some (tx, .error .notFound)

def removeMulticastFlow (tx : FlowsTransmitter) (index : Nat) :
    Option (FlowsTransmitter × Except IoError Unit) :=
  match tx.flowsInfo[index]? with
  | some (some info) =>
      if info.isMulticast then do
        let tx ← tx.removeFlowInternal index
        some (tx.saveState, .ok ())
      else some (tx, .error .permissionDenied)
  | _ => some (tx, .error .notFound)

/-- `activate_multicast_flow`; `none` is the `unwrap` of a flow that is gone. -/
def activateMulticastFlow (tx : FlowsTransmitter) (flowIndex : Nat) : Option FlowsTransmitter := do
  let flow ← tx.flows flowIndex
  some { tx with flags := Function.update tx.flags flow.expired false }

def setChannels (tx : FlowsTransmitter) (handle : FlowHandle)
    (channelIndices : List (Option Nat)) : Option (FlowsTransmitter × Except IoError Nat) :=
  match tx.getFlow handle with
  | some (index, _) => do
      let tx ← tx.send (.setChannels index channelIndices)
      match tx.flowsInfo[index]? with
      | some (some info) =>
          some ({ tx with
            flowsInfo := tx.flowsInfo.set index
              (some { info with localChannelIndices := channelIndices }) }, .ok index)
      | _ => none
  | none => some (tx, .error .notFound)

end FlowsTransmitter

/-! ## Formats and the queue -/

/-- What is fixed about a flow when it is granted. -/
structure FlowFormat where
  fpp : Nat
  bytesPerSample : Nat
deriving DecidableEq

/-- A packet of so many channels can be built: it has samples, they fit the
buffers of `transmit`. -/
structure FlowFormat.Fits (f : FlowFormat) (channels : Nat) : Prop where
  fpp_pos : 1 ≤ f.fpp
  fpp_le : f.fpp ≤ FPP_MAX
  packet_le : 9 + channels * f.bytesPerSample * f.fpp ≤ MTU

instance (f : FlowFormat) (channels : Nat) : Decidable (f.Fits channels) :=
  decidable_of_iff (1 ≤ f.fpp ∧ f.fpp ≤ FPP_MAX ∧ 9 + channels * f.bytesPerSample * f.fpp ≤ MTU)
    ⟨fun ⟨h1, h2, h3⟩ => ⟨h1, h2, h3⟩, fun ⟨h1, h2, h3⟩ => ⟨h1, h2, h3⟩⟩

def Flow.format (flow : Flow) : FlowFormat := ⟨flow.fpp, flow.bytesPerSample⟩

/-- The formats in the thread's table. -/
def formats (flows : List (Option Flow)) (index : Nat) : Option FlowFormat :=
  match flows[index]? with
  | some (some flow) => some flow.format
  | _ => none

/-- What a command does to the formats. -/
def formatsAfter (p : Nat → Option FlowFormat) : TxCommand → Nat → Option FlowFormat
  | .addFlow index _ _ fpp bytesPerSample _ _ =>
      Function.update p index (some ⟨fpp, bytesPerSample⟩)
  | .removeFlow index => Function.update p index none
  | _ => p

/-- The formats once the queue is drained. -/
def pending (p : Nat → Option FlowFormat) (commands : List TxCommand) : Nat → Option FlowFormat :=
  commands.foldl formatsAfter p

/-- A command the thread can take when its table has the formats `p`: a flow
that fits is added where there is none, channels that fit are set where there
is one. -/
def CommandFits (p : Nat → Option FlowFormat) : TxCommand → Prop
  | .addFlow index _ channelIndices fpp bytesPerSample _ _ =>
      index < MAX_FLOWS ∧ p index = none ∧
        (⟨fpp, bytesPerSample⟩ : FlowFormat).Fits channelIndices.length
  | .removeFlow index => index < MAX_FLOWS
  | .setChannels index channelIndices =>
      ∃ f, p index = some f ∧ f.Fits channelIndices.length
  | _ => True

/-- Every command can be taken when its turn comes. -/
def QueueFits : (Nat → Option FlowFormat) → List TxCommand → Prop
  | _, [] => True
  | p, c :: cs => CommandFits p c ∧ QueueFits (formatsAfter p c) cs

theorem pending_append (p : Nat → Option FlowFormat) (cs : List TxCommand) (c : TxCommand) :
    pending p (cs ++ [c]) = formatsAfter (pending p cs) c := by
  rw [pending, List.foldl_append]
  rfl

theorem QueueFits.append {p : Nat → Option FlowFormat} {cs : List TxCommand} {c : TxCommand}
    (h : QueueFits p cs) (hc : CommandFits (pending p cs) c) : QueueFits p (cs ++ [c]) := by
  induction cs generalizing p with
  | nil => exact ⟨hc, trivial⟩
  | cons c' cs ih => exact ⟨h.1, ih h.2 hc⟩

/-! ## The tables -/

namespace FlowsTransmitter

/-- The tables agree: ids, destinations and information name the same flows. -/
structure Tables (tx : FlowsTransmitter) : Prop where
  length : tx.flowsInfo.length = MAX_FLOWS
  addr : ∀ a id, tx.ipPortToId a = some id → ∃ flow, tx.flows id = some flow ∧ flow.remote = a
  id : ∀ id flow, tx.flows id = some flow → tx.ipPortToId flow.remote = some id
  info : ∀ id flow, tx.flows id = some flow → ∃ info, tx.flowsInfo[id]? = some (some info)
  live : ∀ id info, tx.flowsInfo[id]? = some (some info) → (tx.flows id).isSome

theorem Tables.lt {tx : FlowsTransmitter} (h : tx.Tables) {id : Nat} {flow : FlowData}
    (hid : tx.flows id = some flow) : id < MAX_FLOWS := by
  obtain ⟨info, hinfo⟩ := h.info id flow hid
  rw [← h.length]
  exact (List.getElem?_eq_some_iff.mp hinfo).1

/-- The tables agree, and so does the thread's table of formats `p` as soon as
the queue is drained, which it can be. -/
structure Consistent (p : Nat → Option FlowFormat) (tx : FlowsTransmitter) : Prop where
  tables : tx.Tables
  queue : QueueFits p tx.commands
  pending : ∀ id, (pending p tx.commands id).isSome = (tx.flows id).isSome
  receiver : tx.receiverGone = false

/-- The fields the invariant is about. -/
theorem Consistent.congr {p : Nat → Option FlowFormat} {tx tx' : FlowsTransmitter}
    (h : tx.Consistent p) (hf : tx'.flows = tx.flows) (ha : tx'.ipPortToId = tx.ipPortToId)
    (hi : tx'.flowsInfo = tx.flowsInfo) (hc : tx'.commands = tx.commands)
    (hg : tx'.receiverGone = tx.receiverGone) : tx'.Consistent p := by
  obtain ⟨⟨h1, h2, h3, h4, h5⟩, h6, h7, h8⟩ := h
  refine ⟨⟨?_, ?_, ?_, ?_, ?_⟩, ?_, ?_, ?_⟩ <;> simpa only [hf, ha, hi, hc, hg]

theorem saveState_fields (tx : FlowsTransmitter) :
    tx.saveState.flows = tx.flows ∧ tx.saveState.ipPortToId = tx.ipPortToId ∧
      tx.saveState.flowsInfo = tx.flowsInfo ∧ tx.saveState.commands = tx.commands ∧
      tx.saveState.receiverGone = tx.receiverGone ∧ tx.saveState.flags = tx.flags := by
  simp only [saveState]
  split <;> exact ⟨rfl, rfl, rfl, rfl, rfl, rfl⟩

theorem saveState_commands (tx : FlowsTransmitter) : tx.saveState.commands = tx.commands :=
  tx.saveState_fields.2.2.2.1

theorem Consistent.saveState {p : Nat → Option FlowFormat} {tx : FlowsTransmitter}
    (h : tx.Consistent p) : tx.saveState.Consistent p := by
  obtain ⟨h1, h2, h3, h4, h5, _⟩ := tx.saveState_fields
  exact h.congr h1 h2 h3 h4 h5

theorem start_consistent (flags : Flag → Bool) : (start flags).Consistent fun _ => none where
  tables := {
    length := List.length_replicate
    addr := fun _ _ h => by cases h
    id := fun _ _ h => by cases h
    info := fun _ _ h => by cases h
    live := fun id info h => by
      have hmem : some info ∈ List.replicate MAX_FLOWS (none : Option FlowInfo) :=
        List.mem_of_getElem? h
      cases (List.mem_replicate.mp hmem).2 }
  queue := trivial
  pending := fun _ => rfl
  receiver := rfl

theorem getFlow_flows {tx : FlowsTransmitter} {handle : FlowHandle} {id : Nat} {flow : FlowData}
    (h : tx.getFlow handle = some (id, flow)) : tx.flows id = some flow := by
  unfold getFlow at h
  dsimp only at h
  split at h
  · next hflow =>
      split at h
      · cases h
        exact hflow
      · cases h
  · cases h

/-! ## Removing -/

theorem forget_eq {tx : FlowsTransmitter} {id : Nat} {flow : FlowData}
    (h : tx.flows id = some flow) : tx.forget id = { tx with
      flows := Function.update tx.flows id none
      ipPortToId := Function.update tx.ipPortToId flow.remote none } := by
  rw [forget, h]

theorem Tables.remove {tx : FlowsTransmitter} (h : tx.Tables) {id : Nat} {flow : FlowData}
    (hid : tx.flows id = some flow) : Tables { tx with
      flows := Function.update tx.flows id none
      ipPortToId := Function.update tx.ipPortToId flow.remote none
      flowsInfo := tx.flowsInfo.set id none } := by
  have hremote := h.id id flow hid
  refine ⟨by rw [List.length_set, h.length], ?_, ?_, ?_, ?_⟩
  · intro a id' ha
    dsimp only at ha ⊢
    by_cases hne : a = flow.remote
    · rw [hne, Function.update_self] at ha
      cases ha
    · rw [Function.update_of_ne hne] at ha
      obtain ⟨flow', hflow', hremote'⟩ := h.addr a id' ha
      refine ⟨flow', ?_, hremote'⟩
      rw [Function.update_of_ne, hflow']
      rintro rfl
      rw [hid] at hflow'
      cases hflow'
      exact hne hremote'.symm
  · intro id' flow' hflow'
    dsimp only at hflow' ⊢
    by_cases hne : id' = id
    · rw [hne, Function.update_self] at hflow'
      cases hflow'
    · rw [Function.update_of_ne hne] at hflow'
      have hremote' := h.id id' flow' hflow'
      rw [Function.update_of_ne, hremote']
      intro heq
      rw [heq, hremote] at hremote'
      exact hne (Option.some.inj hremote').symm
  · intro id' flow' hflow'
    dsimp only at hflow' ⊢
    by_cases hne : id' = id
    · rw [hne, Function.update_self] at hflow'
      cases hflow'
    · rw [Function.update_of_ne hne] at hflow'
      rw [List.getElem?_set_ne (Ne.symm hne)]
      exact h.info id' flow' hflow'
  · intro id' info hinfo
    dsimp only at hinfo ⊢
    by_cases hne : id' = id
    · rw [hne, List.getElem?_set_self (h.length ▸ h.lt hid)] at hinfo
      cases hinfo
    · rw [List.getElem?_set_ne (Ne.symm hne)] at hinfo
      rw [Function.update_of_ne hne]
      exact h.live id' info hinfo

theorem send_eq {tx : FlowsTransmitter} (h : tx.receiverGone = false) (c : TxCommand) :
    tx.send c = some { tx with commands := tx.commands ++ [c] } := by
  rw [send, h]
  rfl

theorem send_gone {tx : FlowsTransmitter} (h : tx.receiverGone = true) (c : TxCommand) :
    tx.send c = none := by
  rw [send, if_pos h]

theorem removeFlowInternal_eq {tx : FlowsTransmitter} (ht : tx.Tables)
    (hopen : tx.receiverGone = false) {id : Nat} {flow : FlowData}
    (hid : tx.flows id = some flow) :
    tx.removeFlowInternal id = some { tx with
      flows := Function.update tx.flows id none
      ipPortToId := Function.update tx.ipPortToId flow.remote none
      flowsInfo := tx.flowsInfo.set id none
      commands := tx.commands ++ [.removeFlow id] } := by
  have hlt := ht.lt hid
  rw [FlowsTransmitter.removeFlowInternal, forget_eq hid]
  dsimp only
  rw [if_pos (ht.length ▸ hlt), send_eq (by exact hopen)]

theorem removeFlowInternal_gone {tx : FlowsTransmitter} (ht : tx.Tables)
    (hgone : tx.receiverGone = true) {id : Nat} {flow : FlowData}
    (hid : tx.flows id = some flow) : tx.removeFlowInternal id = none := by
  rw [FlowsTransmitter.removeFlowInternal, forget_eq hid]
  dsimp only
  rw [if_pos (ht.length ▸ ht.lt hid), send_gone (by exact hgone)]

/-- Removing a live flow keeps everything consistent. -/
theorem Consistent.removeFlowInternal {p : Nat → Option FlowFormat} {tx : FlowsTransmitter}
    (h : tx.Consistent p) {id : Nat} {flow : FlowData} (hid : tx.flows id = some flow) :
    ∃ tx', tx.removeFlowInternal id = some tx' ∧ tx'.Consistent p ∧
      tx'.flows = Function.update tx.flows id none ∧
      tx'.ipPortToId = Function.update tx.ipPortToId flow.remote none := by
  refine ⟨_, removeFlowInternal_eq h.tables h.receiver hid,
    ⟨?_, ?_, fun id' => ?_, h.receiver⟩, rfl, rfl⟩
  · obtain ⟨h1, h2, h3, h4, h5⟩ := h.tables.remove hid
    exact ⟨h1, h2, h3, h4, h5⟩
  · exact h.queue.append (h.tables.lt hid)
  · dsimp only
    rw [pending_append]
    dsimp only [formatsAfter]
    by_cases hne : id' = id
    · rw [hne, Function.update_self, Function.update_self]
      rfl
    · rw [Function.update_of_ne hne, Function.update_of_ne hne, h.pending id']

/-! ## The expiry scan -/

/-- The scan picks live ids, each once. -/
theorem Tables.expiredIds {tx : FlowsTransmitter} (h : tx.Tables) (ids : List Nat) :
    ∃ out, tx.expiredIds ids = some out ∧ out.Sublist ids ∧ ∀ id ∈ out, (tx.flows id).isSome := by
  induction ids with
  | nil => exact ⟨[], rfl, List.Sublist.refl _, fun _ hid => by cases hid⟩
  | cons id ids ih =>
      obtain ⟨out, hout, hsub, hlive⟩ := ih
      obtain ⟨expired, hexpired, hsome⟩ : ∃ expired, tx.isExpired id = some expired ∧
          (expired = true → (tx.flows id).isSome) := by
        unfold isExpired
        cases hid : tx.flows id with
        | none => exact ⟨false, rfl, fun hf => by cases hf⟩
        | some flow =>
            obtain ⟨info, hinfo⟩ := h.info id flow hid
            dsimp only
            rw [hinfo]
            split
            · exact ⟨_, rfl, fun _ => rfl⟩
            · exact ⟨_, rfl, fun _ => rfl⟩
      refine ⟨if expired then id :: out else out, ?_, ?_, ?_⟩
      · rw [FlowsTransmitter.expiredIds, hexpired, hout]
        rfl
      · cases expired with
        | true => exact hsub.cons_cons id
        | false => exact hsub.cons id
      · cases expired with
        | true =>
            intro id' hid'
            rcases List.mem_cons.mp hid' with rfl | hid'
            · exact hsome rfl
            · exact hlive id' hid'
        | false => exact hlive

theorem Consistent.removeAll {p : Nat → Option FlowFormat} {tx : FlowsTransmitter}
    (h : tx.Consistent p) {ids : List Nat} (hnodup : ids.Nodup)
    (hlive : ∀ id ∈ ids, (tx.flows id).isSome) :
    ∃ tx', ids.foldlM FlowsTransmitter.removeFlowInternal tx = some tx' ∧ tx'.Consistent p ∧
      ∀ a, tx.ipPortToId a = none → tx'.ipPortToId a = none := by
  induction ids generalizing tx with
  | nil => exact ⟨tx, rfl, h, fun _ ha => ha⟩
  | cons id ids ih =>
      obtain ⟨flow, hflow⟩ := Option.isSome_iff_exists.mp (hlive id List.mem_cons_self)
      obtain ⟨hnot, hnodup⟩ := List.nodup_cons.mp hnodup
      obtain ⟨tx₁, hrun, h₁, hflows, hip⟩ := h.removeFlowInternal hflow
      have hlive₁ : ∀ id' ∈ ids, (tx₁.flows id').isSome := by
        intro id' hid'
        have hne : id' ≠ id := fun heq => hnot (heq ▸ hid')
        rw [hflows, Function.update_of_ne hne]
        exact hlive id' (List.mem_cons_of_mem _ hid')
      obtain ⟨tx', hrest, h', hip'⟩ := ih h₁ hnodup hlive₁
      refine ⟨tx', ?_, h', fun a ha => hip' a ?_⟩
      · rw [List.foldlM_cons, hrun]
        exact hrest
      · rw [hip]
        by_cases hne : a = flow.remote
        · rw [hne, Function.update_self]
        · rw [Function.update_of_ne hne, ha]

theorem Consistent.scanExpired {p : Nat → Option FlowFormat} {tx : FlowsTransmitter}
    (h : tx.Consistent p) : ∃ tx', tx.scanExpired = some tx' ∧ tx'.Consistent p ∧
      ∀ a, tx.ipPortToId a = none → tx'.ipPortToId a = none := by
  obtain ⟨ids, hids, hsub, hlive⟩ := h.tables.expiredIds (List.range MAX_FLOWS)
  obtain ⟨tx', hrun, h'⟩ := h.removeAll (hsub.nodup List.nodup_range) hlive
  refine ⟨tx', ?_, h'⟩
  rw [FlowsTransmitter.scanExpired, hids]
  exact hrun

/-! ## Adding -/

/-- A free index is found or an error returned; nothing else changes. -/
theorem Consistent.chooseIndex {p : Nat → Option FlowFormat} {tx : FlowsTransmitter}
    (h : tx.Consistent p) (attempts : Nat) :
    ∃ tx' r, FlowsTransmitter.chooseIndex none attempts tx = some (tx', r) ∧ tx'.Consistent p ∧
      tx'.ipPortToId = tx.ipPortToId ∧
      ∀ id, r = .ok id → id < MAX_FLOWS ∧ tx'.flows id = none := by
  induction attempts generalizing tx with
  | zero => exact ⟨tx, _, rfl, h, rfl, fun id hid => by cases hid⟩
  | succ attempts ih =>
      have h₁ : Consistent p { tx with flowSeqId := tx.flowSeqId + 1 } :=
        h.congr rfl rfl rfl rfl rfl
      rw [FlowsTransmitter.chooseIndex]
      dsimp only
      split
      · exact ih h₁
      · next hfree =>
          refine ⟨_, _, rfl, h₁, rfl, fun id hid => ?_⟩
          cases hid
          exact ⟨Nat.mod_lt _ (by decide), Option.not_isSome_iff_eq_none.mp hfree⟩

/-- The tables with a new flow at a free index. -/
theorem Tables.insert {tx : FlowsTransmitter} (h : tx.Tables) {id : Nat} (hlt : id < MAX_FLOWS)
    (hfree : tx.flows id = none) {info : FlowInfo} {flow : FlowData}
    (hremote : flow.remote = info.dst) (hnew : tx.ipPortToId info.dst = none) :
    Tables { tx with
      flows := Function.update tx.flows id (some flow)
      ipPortToId := Function.update tx.ipPortToId info.dst (some id)
      flowsInfo := tx.flowsInfo.set id (some info) } := by
  refine ⟨by rw [List.length_set, h.length], ?_, ?_, ?_, ?_⟩
  · intro a id' ha
    dsimp only at ha ⊢
    by_cases hne : a = info.dst
    · rw [hne, Function.update_self] at ha
      cases ha
      exact ⟨flow, Function.update_self _ _ _, hremote.trans hne.symm⟩
    · rw [Function.update_of_ne hne] at ha
      obtain ⟨flow', hflow', hremote'⟩ := h.addr a id' ha
      refine ⟨flow', ?_, hremote'⟩
      rw [Function.update_of_ne, hflow']
      rintro rfl
      rw [hfree] at hflow'
      cases hflow'
  · intro id' flow' hflow'
    dsimp only at hflow' ⊢
    by_cases hne : id' = id
    · rw [hne, Function.update_self] at hflow'
      cases hflow'
      rw [hremote, Function.update_self, hne]
    · rw [Function.update_of_ne hne] at hflow'
      have hremote' := h.id id' flow' hflow'
      rw [Function.update_of_ne, hremote']
      intro heq
      rw [heq, hnew] at hremote'
      cases hremote'
  · intro id' flow' hflow'
    dsimp only at hflow' ⊢
    by_cases hne : id' = id
    · rw [hne, List.getElem?_set_self (h.length ▸ hlt)]
      exact ⟨info, rfl⟩
    · rw [Function.update_of_ne hne] at hflow'
      rw [List.getElem?_set_ne (Ne.symm hne)]
      exact h.info id' flow' hflow'
  · intro id' info' hinfo
    dsimp only at hinfo ⊢
    by_cases hne : id' = id
    · rw [hne, Function.update_self]
      rfl
    · rw [List.getElem?_set_ne (Ne.symm hne)] at hinfo
      rw [Function.update_of_ne hne]
      exact h.live id' info' hinfo

/-- Other information about a live flow. -/
theorem Tables.setInfo {tx : FlowsTransmitter} (h : tx.Tables) {id : Nat} {flow : FlowData}
    (hid : tx.flows id = some flow) (info : FlowInfo) :
    Tables { tx with flowsInfo := tx.flowsInfo.set id (some info) } := by
  refine ⟨by rw [List.length_set, h.length], h.addr, h.id, ?_, ?_⟩
  · intro id' flow' hflow'
    dsimp only at hflow' ⊢
    by_cases hne : id' = id
    · rw [hne, List.getElem?_set_self (h.length ▸ h.lt hid)]
      exact ⟨info, rfl⟩
    · rw [List.getElem?_set_ne (Ne.symm hne)]
      exact h.info id' flow' hflow'
  · intro id' info' hinfo
    dsimp only at hinfo ⊢
    by_cases hne : id' = id
    · rw [hne, hid]
      rfl
    · rw [List.getElem?_set_ne (Ne.symm hne)] at hinfo
      exact h.live id' info' hinfo

theorem register_eq {tx : FlowsTransmitter} {id : Nat} (hlt : id < tx.flowsInfo.length)
    (info : FlowInfo) (cookie : BitVec 16) :
    tx.register info id cookie = (saveState { tx with
      ipPortToId := Function.update tx.ipPortToId info.dst (some id)
      flowsInfo := tx.flowsInfo.set id (some info) }, .ok (id, makeHandle id cookie)) := by
  rw [register]
  exact if_neg (Nat.not_le.mpr hlt)

/-- For a destination that has a flow, that flow gets the new channels. -/
theorem addFlow_told {tx : FlowsTransmitter} (ht : tx.Tables) (hopen : tx.receiverGone = false)
    {info : FlowInfo} {id : Nat} {flow : FlowData} (hip : tx.ipPortToId info.dst = some id)
    (hflow : tx.flows id = some flow) (fpp bytesPerSample : Nat) (requested : Option Nat)
    (isMulticast : Bool) (env : AddFlowEnv) :
    tx.addFlow info fpp bytesPerSample requested isMulticast env = some (saveState { tx with
      commands := tx.commands ++ [.setChannels id info.localChannelIndices]
      flowsInfo := tx.flowsInfo.set id (some info) }, .ok (id, makeHandle id flow.cookie)) := by
  unfold FlowsTransmitter.addFlow
  simp only [hip, send_eq hopen, hflow, Option.bind_eq_bind, Option.bind_some]
  rw [register_eq (ht.length ▸ ht.lt hflow)]
  dsimp only
  -- the destination was the flow's already
  rw [Function.update_eq_self_iff.mpr hip.symm]

theorem addFlow_gone {tx : FlowsTransmitter} (hgone : tx.receiverGone = true) {info : FlowInfo}
    {id : Nat} (hip : tx.ipPortToId info.dst = some id) (fpp bytesPerSample : Nat)
    (requested : Option Nat) (isMulticast : Bool) (env : AddFlowEnv) :
    tx.addFlow info fpp bytesPerSample requested isMulticast env = none := by
  unfold FlowsTransmitter.addFlow
  simp only [hip, send_gone hgone, Option.bind_eq_bind, Option.bind_none]

/-- A flow that fits goes in at a free index. -/
theorem Consistent.insertFlow {p : Nat → Option FlowFormat} {tx : FlowsTransmitter}
    (h : tx.Consistent p) {info : FlowInfo} {fpp bytesPerSample : Nat}
    (hfits : (⟨fpp, bytesPerSample⟩ : FlowFormat).Fits info.localChannelIndices.length)
    (hnew : tx.ipPortToId info.dst = none) {id : Nat} (hlt : id < MAX_FLOWS)
    (hfree : tx.flows id = none) (isMulticast : Bool) (cookie : BitVec 16) :
    (tx.insertFlow info fpp bytesPerSample isMulticast cookie id).1.Consistent p := by
  have hpending : Inferno.pending p tx.commands id = none := by
    have hid := h.pending id
    rw [hfree] at hid
    exact Option.not_isSome_iff_eq_none.mp (by rw [hid]; exact Bool.false_ne_true)
  rw [FlowsTransmitter.insertFlow, h.receiver]
  dsimp only
  rw [if_neg Bool.false_ne_true, register_eq (h.tables.length ▸ hlt)]
  refine Consistent.saveState ⟨?_, ?_, fun id' => ?_, rfl⟩
  · obtain ⟨h1, h2, h3, h4, h5⟩ := @Tables.insert tx h.tables id hlt hfree info
      ⟨cookie, info.dst, tx.nextFlag⟩ rfl hnew
    exact ⟨h1, h2, h3, h4, h5⟩
  · exact h.queue.append ⟨hlt, hpending, hfits⟩
  · dsimp only
    rw [pending_append]
    dsimp only [formatsAfter]
    by_cases hne : id' = id
    · rw [hne, Function.update_self, Function.update_self]
      rfl
    · rw [Function.update_of_ne hne, Function.update_of_ne hne, h.pending id']

/-- The format a live flow has once the queue is drained. -/
theorem Consistent.format {p : Nat → Option FlowFormat} {tx : FlowsTransmitter}
    (h : tx.Consistent p) {id : Nat} {flow : FlowData} (hid : tx.flows id = some flow) :
    ∃ f, Inferno.pending p tx.commands id = some f := by
  have hp := h.pending id
  rw [hid] at hp
  exact Option.isSome_iff_exists.mp hp

/-- Channels that fit are set in a live flow. -/
theorem Consistent.sendChannels {p : Nat → Option FlowFormat} {tx : FlowsTransmitter}
    (h : tx.Consistent p) {id : Nat} {chs : List (Option Nat)} {f : FlowFormat}
    (hf : Inferno.pending p tx.commands id = some f) (hfits : f.Fits chs.length) :
    Consistent p { tx with commands := tx.commands ++ [.setChannels id chs] } := by
  refine ⟨?_, h.queue.append ⟨f, hf, hfits⟩, fun id' => ?_, h.receiver⟩
  · obtain ⟨h1, h2, h3, h4, h5⟩ := h.tables
    exact ⟨h1, h2, h3, h4, h5⟩
  · dsimp only
    rw [pending_append]
    exact h.pending id'

theorem Consistent.setInfo {p : Nat → Option FlowFormat} {tx : FlowsTransmitter}
    (h : tx.Consistent p) {id : Nat} {flow : FlowData} (hid : tx.flows id = some flow)
    (info : FlowInfo) : Consistent p { tx with flowsInfo := tx.flowsInfo.set id (some info) } :=
  ⟨h.tables.setInfo hid info, h.queue, h.pending, h.receiver⟩

/-! ## The operations -/

/-- What has to hold of a request so that the thread can take it: a new flow
fits; for a destination that has a flow, the channels fit that flow. -/
def AddFits (p : Nat → Option FlowFormat) (tx : FlowsTransmitter) (info : FlowInfo)
    (fpp bytesPerSample : Nat) : Prop :=
  match tx.ipPortToId info.dst with
  | none => (⟨fpp, bytesPerSample⟩ : FlowFormat).Fits info.localChannelIndices.length
  | some id => ∀ f ∈ Inferno.pending p tx.commands id, f.Fits info.localChannelIndices.length

/-- The same for new channels of a flow. -/
def SetFits (p : Nat → Option FlowFormat) (tx : FlowsTransmitter) (handle : FlowHandle)
    (channelIndices : List (Option Nat)) : Prop :=
  ∀ id flow, tx.getFlow handle = some (id, flow) →
    ∀ f ∈ Inferno.pending p tx.commands id, f.Fits channelIndices.length

instance (p : Nat → Option FlowFormat) (tx : FlowsTransmitter) (info : FlowInfo)
    (fpp bytesPerSample : Nat) : Decidable (AddFits p tx info fpp bytesPerSample) := by
  unfold AddFits
  split <;> infer_instance

instance (p : Nat → Option FlowFormat) (tx : FlowsTransmitter) (handle : FlowHandle)
    (channelIndices : List (Option Nat)) : Decidable (SetFits p tx handle channelIndices) :=
  decidable_of_iff (∀ r ∈ tx.getFlow handle, ∀ f ∈ Inferno.pending p tx.commands r.1,
      f.Fits channelIndices.length)
    ⟨fun h id flow hget => h (id, flow) hget, fun h r hget => h r.1 r.2 hget⟩

theorem Consistent.addFlow {p : Nat → Option FlowFormat} {tx : FlowsTransmitter}
    (h : tx.Consistent p) {info : FlowInfo} {fpp bytesPerSample : Nat}
    (hfits : AddFits p tx info fpp bytesPerSample) (isMulticast : Bool) (env : AddFlowEnv) :
    ∃ tx' r, tx.addFlow info fpp bytesPerSample none isMulticast env = some (tx', r) ∧
      tx'.Consistent p := by
  unfold AddFits at hfits
  cases hip : tx.ipPortToId info.dst with
  | none =>
      rw [hip] at hfits
      obtain ⟨tx₁, hscan, h₁, hip₁⟩ := h.scanExpired
      obtain ⟨tx₂, r, hchoose, h₂, hip₂, hfree⟩ := h₁.chooseIndex (MAX_FLOWS + 1)
      unfold FlowsTransmitter.addFlow
      simp only [hip, hscan, hchoose, Option.bind_eq_bind, Option.bind_some]
      cases r with
      | error e => exact ⟨_, _, rfl, h₂⟩
      | ok id =>
          obtain ⟨hlt, hnone⟩ := hfree id rfl
          dsimp only
          split
          · refine ⟨_, _, rfl, h₂.insertFlow hfits ?_ hlt hnone isMulticast env.cookie⟩
            rw [hip₂, hip₁ _ hip]
          · exact ⟨_, _, rfl, h₂⟩
  | some id =>
      rw [hip] at hfits
      obtain ⟨flow, hflow, _⟩ := h.tables.addr _ _ hip
      obtain ⟨f, hf⟩ := h.format hflow
      refine ⟨_, _, addFlow_told h.tables h.receiver hip hflow fpp bytesPerSample none isMulticast
        env, Consistent.saveState ?_⟩
      exact (h.sendChannels hf (hfits f hf)).setInfo hflow info

theorem Consistent.setChannels {p : Nat → Option FlowFormat} {tx : FlowsTransmitter}
    (h : tx.Consistent p) {handle : FlowHandle} {chs : List (Option Nat)}
    (hfits : SetFits p tx handle chs) :
    ∃ tx' r, tx.setChannels handle chs = some (tx', r) ∧ tx'.Consistent p := by
  unfold FlowsTransmitter.setChannels
  cases hget : tx.getFlow handle with
  | none => exact ⟨_, _, rfl, h⟩
  | some r =>
      obtain ⟨id, flow⟩ := r
      have hflow := getFlow_flows hget
      obtain ⟨f, hf⟩ := h.format hflow
      obtain ⟨info, hinfo⟩ := h.tables.info id flow hflow
      simp only [send_eq h.receiver, hinfo, Option.bind_eq_bind, Option.bind_some]
      exact ⟨_, _, rfl, (h.sendChannels hf (hfits id flow hget f hf)).setInfo hflow _⟩

theorem Consistent.removeFlow {p : Nat → Option FlowFormat} {tx : FlowsTransmitter}
    (h : tx.Consistent p) (handle : FlowHandle) :
    ∃ tx' r, tx.removeFlow handle = some (tx', r) ∧ tx'.Consistent p := by
  unfold FlowsTransmitter.removeFlow
  cases hget : tx.getFlow handle with
  | none => exact ⟨_, _, rfl, h⟩
  | some r =>
      obtain ⟨id, flow⟩ := r
      obtain ⟨tx', hrun, h', _⟩ := h.removeFlowInternal (getFlow_flows hget)
      simp only [hrun, Option.bind_eq_bind, Option.bind_some]
      exact ⟨_, _, rfl, h'.saveState⟩

end FlowsTransmitter

end Inferno
