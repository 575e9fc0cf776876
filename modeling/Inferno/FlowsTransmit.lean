import Inferno.RingReads
import Inferno.Wire

/-!
# The transmitting thread

`FlowsTransmitterInternal`: the table of live flows, the commands that change
it and `transmit`, which sends every packet that is due. A panic is `none`.

What the thread does not decide is in an `Outside`: what each `send` and each
`recv` returns and what the clock says when it is read again. The `expired`
flags are cells shared with the control side and live in a `Flag → Bool`. The
rings are read while nobody writes them; what a read returns beside a writer is
the business of `readAt_history`.
-/

namespace Inferno

def FPP_MAX : Nat := 256

def MAX_FLOWS : Nat := 32

def KEEPALIVE_TIMEOUT_SECONDS : Clock := 4

def DISCONTINUITY_THRESHOLD_SAMPLES : Int := 192000

/-- The name of an `Arc<AtomicBool>`. -/
abbrev Flag := Nat

/-! ## Flows -/

/-- `Flow`; the socket is told by the address it is connected to. -/
structure Flow where
  socket : SocketAddr
  channelIndices : List (Option Nat)
  nextTs : Clock
  fpp : Nat
  bytesPerSample : Nat
  expires : Option Clock
  expired : Flag
deriving DecidableEq

namespace Flow

/-- `bootstrap_next_ts`; `none` is the remainder by zero. -/
def bootstrapNextTs (flow : Flow) (now : Clock) : Option Flow :=
  let fpp := BitVec.ofNat 64 flow.fpp
  if fpp = 0 then none
  else some { flow with nextTs := now + (fpp - now % fpp) }

def keepAlive (flow : Flow) (now : Clock) (sampleRate : BitVec 32) : Flow :=
  { flow with
    expires := flow.expires.map fun _ =>
      now + KEEPALIVE_TIMEOUT_SECONDS * sampleRate.setWidth 64 }

/-- Bytes between two samples of one channel. -/
def stride (flow : Flow) : Nat := flow.channelIndices.length * flow.bytesPerSample

end Flow

/-! ## One packet -/

/-- A channel's ring, as its reader has it. -/
structure TxSource where
  shared : RingShared
  mem : RingMem Sample

/-- The fields of `FlowsTransmitterInternal` that `transmit` only reads. -/
structure TxConfig where
  sampleRate : BitVec 32
  channelsSources : List TxSource
  clockOffsetSamples : Usize
  maxLagSamples : Usize
  timestampShift : Usize

/-- The buffers of `transmit` and its generator. -/
structure TxBuffers where
  pbuff : Nat → Byte
  tmpSamples : List Sample
  ditherRng : DitherRng

/-- `tmp_samples[0..start].fill(0); tmp_samples[fin..].fill(0)`. -/
def zeroOutside (start fin : Nat) (samples : List Sample) : List Sample :=
  samples.mapIdx fun i x => if i < start ∨ fin ≤ i then 0 else x

/-- `fpp` samples of a channel from `start_ts` on, silence where there are
none; `none` is a slice out of range or a panic of `read_at`. -/
def readChannel (src : TxSource) (startTs : Usize) (fpp : Nat) (tmpSamples : List Sample) :
    Option (List Sample) :=
  if fpp ≤ tmpSamples.length then do
    let ((out, r), _) ← (RBOutput.readAt src.shared startTs (tmpSamples.take fpp)).exec ringMem
      src.mem
    let tmpSamples := out ++ tmpSamples.drop fpp
    if r.usefulStartIndex ≠ 0 ∨ r.usefulEndIndex ≠ fpp then
      if r.usefulStartIndex ≤ tmpSamples.length ∧ r.usefulEndIndex ≤ tmpSamples.length then
        some (zeroOutside r.usefulStartIndex r.usefulEndIndex tmpSamples)
      else none
    else some tmpSamples
  else none

/-- `match flow.bytes_per_sample`: the 32-bit writer is given no generator,
any other width than the three only logs. -/
def writeChannel (flow : Flow) (indexInFlow : Nat) (b : TxBuffers) : TxBuffers :=
  match SampleWidth.ofBytes? flow.bytesPerSample with
  | none => b
  | some w =>
      let start := 9 + indexInFlow * flow.bytesPerSample
      let rng := if w = .s32 then none else some b.ditherRng
      let (pbuff, rng) := writeSamples w MTU flow.stride (b.tmpSamples.take flow.fpp) start b.pbuff
        rng
      { b with pbuff := pbuff, ditherRng := rng.getD b.ditherRng }

/-- The channels of a flow from position `i` on; one without a ring only logs. -/
def writeChannels (cfg : TxConfig) (flow : Flow) (startTs : Usize) :
    List (Option Nat) → Nat → TxBuffers → Option TxBuffers
  | [], _, b => some b
  | none :: chs, i, b => writeChannels cfg flow startTs chs (i + 1) b
  | some ch :: chs, i, b =>
      match cfg.channelsSources[ch]? with
      | none => writeChannels cfg flow startTs chs (i + 1) b
      | some src => do
          let tmpSamples ← readChannel src startTs flow.fpp b.tmpSamples
          let b := writeChannel flow i { b with tmpSamples := tmpSamples }
          writeChannels cfg flow startTs chs (i + 1) b

/-- The packet of `next_ts`, in `pbuff`. -/
def buildPacket (cfg : TxConfig) (flow : Flow) (b : TxBuffers) : Option TxBuffers := do
  let packetTs := flow.nextTs + cfg.clockOffsetSamples
  let pbuff ← writeHeader cfg.sampleRate packetTs b.pbuff
  let startTs := flow.nextTs + cfg.timestampShift
  writeChannels cfg flow startTs flow.channelIndices 0 { b with pbuff := pbuff }

/-! ## One flow -/

/-- What the thread does not decide: the results of its calls, in order. -/
structure Outside where
  send : Nat → Option Nat
  recv : Nat → Option (List Byte)
  now : Nat → Option Clock

/-- A packet handed to `send`, with the flow as it was then. -/
structure TxPacket where
  flow : Flow
  buf : Nat → Byte
  len : Nat

/-- What `transmit` changes besides the flows: the flags, its buffers, how
often it called out, and what it sent. -/
structure TxRun where
  flags : Flag → Bool
  buffers : TxBuffers
  iterations : Nat
  sends : Nat
  recvs : Nat
  nows : Nat
  sent : List TxPacket

/-- How a loop of `transmit` ends: `yielded` is the return that lets others
run, `outOfFuel` bounds the loop of the model. -/
inductive LoopEnd where
  | done
  | yielded
  | outOfFuel
deriving DecidableEq

/-- `flow.socket.send(&pbuff[0..to_send])`. -/
def sendPacket (env : Outside) (flow : Flow) (st : TxRun) : Option (Flow × TxRun) :=
  let toSend := 9 + flow.stride * flow.fpp
  if toSend ≤ MTU then
    let st' := { st with
      sends := st.sends + 1
      sent := st.sent ++ [⟨flow, st.buffers.pbuff, toSend⟩] }
    if env.send st.sends = some toSend then
      some ({ flow with nextTs := flow.nextTs + BitVec.ofNat 64 flow.fpp }, st')
    else some (flow, st')
  else none

/-- Every sixteenth packet: true if the thread has been awake too long. -/
def awakeTooLong (cfg : TxConfig) (env : Outside) (now : Clock) (st : TxRun) : Bool × TxRun :=
  let st := { st with iterations := st.iterations + 1 }
  if st.iterations % 16 = 0 then
    let maxAwakeTimeSamples : Int := (cfg.sampleRate / 200).toNat
    let st' := { st with nows := st.nows + 1 }
    match env.now st.nows with
    | some realNow => (decide (wrappedDiff realNow now > maxAwakeTimeSamples), st')
    | none => (false, st')
  else (false, st)

/-- `while wrapped_diff(now, flow.next_ts) >= 0`. -/
def sendLoop (cfg : TxConfig) (env : Outside) (now : Clock) :
    Nat → Flow → TxRun → Option (Flow × TxRun × LoopEnd)
  | 0, flow, st => some (flow, st, .outOfFuel)
  | fuel + 1, flow, st =>
      if wrappedDiff now flow.nextTs ≥ 0 then do
        let b ← buildPacket cfg flow st.buffers
        let (flow, st) ← sendPacket env flow { st with buffers := b }
        let (yield, st) := awakeTooLong cfg env now st
        if yield then some (flow, st, .yielded)
        else sendLoop cfg env now fuel flow st
      else some (flow, st, .done)

/-- The resynchronisations before the loop: dropout, clock jump. -/
def resync (cfg : TxConfig) (now : Clock) (flow : Flow) : Option Flow :=
  let lag := wrappedDiff now flow.nextTs
  (if lag > cfg.maxLagSamples.toInt then flow.bootstrapNextTs now else some flow).bind fun flow =>
    if lag < -DISCONTINUITY_THRESHOLD_SAMPLES then flow.bootstrapNextTs now else some flow

/-- `pbuff[9..9 + stride * flow.fpp].fill(0)`. -/
def clearPayload (flow : Flow) (b : TxBuffers) : Option TxBuffers :=
  let fin := 9 + flow.stride * flow.fpp
  if fin ≤ MTU then
    some { b with pbuff := fun p => if 9 ≤ p ∧ p < fin then 0 else b.pbuff p }
  else none

/-- The keepalive check; a keepalive is received into the packet buffer. -/
def processKeepalive (cfg : TxConfig) (env : Outside) (now : Clock) (flow : Flow) (st : TxRun) :
    Flow × TxRun :=
  match flow.expires with
  | none => (flow, st)
  | some expires =>
      let st' := { st with recvs := st.recvs + 1 }
      match env.recv st.recvs with
      | some bytes =>
          let pbuff := putBytes st.buffers.pbuff 0 (bytes.take MTU)
          (flow.keepAlive now cfg.sampleRate,
            { st' with buffers := { st.buffers with pbuff := pbuff } })
      | none =>
          if wrappedDiff expires now < 0 then
            (flow, { st' with flags := Function.update st.flags flow.expired true })
          else (flow, st')

/-- The body of `transmit`'s loop over the flows. -/
def transmitFlow (cfg : TxConfig) (env : Outside) (now : Clock) (processEvents : Bool)
    (fuel : Nat) (flow : Flow) (st : TxRun) : Option (Flow × TxRun × LoopEnd) :=
  if st.flags flow.expired then some (flow, st, .done)
  else do
    let flow ← resync cfg now flow
    let b ← clearPayload flow st.buffers
    let (flow, st, fin) ← sendLoop cfg env now fuel flow { st with buffers := b }
    if fin = .done ∧ processEvents then
      let (flow, st) := processKeepalive cfg env now flow st
      some (flow, st, .done)
    else some (flow, st, fin)

/-! ## The whole table -/

/-- The loop over the table; a yield leaves the rest of it as it is. -/
def transmitFlows (cfg : TxConfig) (env : Outside) (now : Clock) (processEvents : Bool)
    (fuel : Nat) : List (Option Flow) → TxRun → Option (List (Option Flow) × TxRun × LoopEnd)
  | [], st => some ([], st, .done)
  | none :: flows, st => do
      let (flows, st, fin) ← transmitFlows cfg env now processEvents fuel flows st
      some (none :: flows, st, fin)
  | some flow :: flows, st => do
      let (flow, st, fin) ← transmitFlow cfg env now processEvents fuel flow st
      if fin = .done then
        let (flows, st, fin) ← transmitFlows cfg env now processEvents fuel flows st
        some (some flow :: flows, st, fin)
      else some (some flow :: flows, st, fin)

/-- The state of a call of `transmit` when it begins. -/
def TxRun.begin (flags : Flag → Bool) (ditherRng : DitherRng) : TxRun where
  flags := flags
  buffers := ⟨fun _ => 0, List.replicate FPP_MAX 0, ditherRng⟩
  iterations := 0
  sends := 0
  recvs := 0
  nows := 0
  sent := []

/-- `transmit`. -/
def transmit (cfg : TxConfig) (env : Outside) (now : Clock) (processEvents : Bool) (fuel : Nat)
    (flows : List (Option Flow)) (flags : Flag → Bool) (ditherRng : DitherRng) :
    Option (List (Option Flow) × TxRun × LoopEnd) :=
  transmitFlows cfg env now processEvents fuel flows (.begin flags ditherRng)

/-! ## Commands -/

/-- `Command`. -/
inductive TxCommand where
  | noOp
  | shutdown
  | addFlow (index : Nat) (socket : SocketAddr) (channelIndices : List (Option Nat)) (fpp : Nat)
      (bytesPerSample : Nat) (needsKeepalives : Bool) (expired : Flag)
  | removeFlow (index : Nat)
  | setChannels (index : Nat) (channelIndices : List (Option Nat))
deriving DecidableEq

/-- The flow of an `AddFlow`. -/
def newFlow (sampleRate : BitVec 32) (now : Option Clock) (socket : SocketAddr)
    (channelIndices : List (Option Nat)) (fpp bytesPerSample : Nat) (needsKeepalives : Bool)
    (expired : Flag) : Option Flow :=
  let flow : Flow := {
    socket, channelIndices, nextTs := 0, fpp, bytesPerSample
    expires := if needsKeepalives then some 0 else none
    expired }
  match now with
  | none => some flow
  | some now => do
      let flow ← flow.bootstrapNextTs now
      some (if needsKeepalives then flow.keepAlive now sampleRate else flow)

/-- The flow after a `SetChannels`, and its flag: an expired one is resuscitated. -/
def changeChannels (sampleRate : BitVec 32) (now : Option Clock) (expired : Bool)
    (channelIndices : List (Option Nat)) (flow : Flow) : Option Flow :=
  let flow := { flow with channelIndices := channelIndices }
  match now with
  | none => some flow
  | some now =>
      let flow := flow.keepAlive now sampleRate
      if expired then flow.bootstrapNextTs now else some flow

/-- `match command` in `run`, on the table and the flags; `now` is what
`self.now()` answers. -/
def handleCommand (sampleRate : BitVec 32) (now : Option Clock) (flows : List (Option Flow))
    (flags : Flag → Bool) : TxCommand → Option (List (Option Flow) × (Flag → Bool))
  | .noOp => some (flows, flags)
  | .shutdown => some (flows, flags)
  | .addFlow index socket channelIndices fpp bytesPerSample needsKeepalives expired => do
      let flow ← newFlow sampleRate now socket channelIndices fpp bytesPerSample needsKeepalives
        expired
      if index < flows.length then some (flows.set index (some flow), flags) else none
  | .removeFlow index =>
      if index < flows.length then some (flows.set index none, flags) else none
  | .setChannels index channelIndices =>
      match flows[index]? with
      | some (some flow) => do
          let flow ← changeChannels sampleRate now (flags flow.expired) channelIndices flow
          some (flows.set index (some flow), Function.update flags flow.expired false)
      | _ => none

end Inferno
