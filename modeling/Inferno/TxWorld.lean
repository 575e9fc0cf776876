import Inferno.FlowsControl
import Inferno.TxFidelity

/-!
# The server beside the thread

Datagrams are served while the transmitting thread drains its queue and sends
(`TxWorld`). The thread lives as long as every flow it is given fits the
buffers of `transmit`; the server does not see to that, so it is a condition on
the requests (`accepted_flows_fit`), and a request outside of it does kill the
thread (`zero_fpp_kills`).
-/

namespace Inferno

/-! ## What the thread can take -/

def Flow.Fits (flow : Flow) : Prop := flow.format.Fits flow.channelIndices.length

def TableFits (flows : List (Option Flow)) : Prop :=
  flows.length = MAX_FLOWS ∧ ∀ flow, some flow ∈ flows → flow.Fits

theorem Flow.Fits.bootstrap {flow : Flow} (h : flow.Fits) (now : Clock) :
    ∃ nextTs, flow.bootstrapNextTs now = some { flow with nextTs := nextTs } := by
  have hne : BitVec.ofNat 64 flow.fpp ≠ 0 := by
    intro h0
    have h1 : 1 ≤ flow.fpp := h.fpp_pos
    have h2 : flow.fpp ≤ 256 := h.fpp_le
    have hnat := congrArg BitVec.toNat h0
    rw [BitVec.toNat_ofNat, Nat.mod_eq_of_lt (by omega)] at hnat
    exact absurd hnat (by simp; omega)
  exact ⟨_, if_neg hne⟩

theorem newFlow_some {sampleRate : BitVec 32} {now : Option Clock} {socket : SocketAddr}
    {chs : List (Option Nat)} {fpp bytesPerSample : Nat} {needsKeepalives : Bool} {flag : Flag}
    (h : (⟨fpp, bytesPerSample⟩ : FlowFormat).Fits chs.length) :
    ∃ flow, newFlow sampleRate now socket chs fpp bytesPerSample needsKeepalives flag = some flow ∧
      flow.format = ⟨fpp, bytesPerSample⟩ ∧ flow.channelIndices = chs := by
  unfold newFlow
  dsimp only
  cases now with
  | none => exact ⟨_, rfl, rfl, rfl⟩
  | some now =>
      obtain ⟨ts, hboot⟩ := @Flow.Fits.bootstrap ⟨socket, chs, 0, fpp, bytesPerSample,
        if needsKeepalives = true then some 0 else none, flag⟩ h now
      simp only [hboot, Option.bind_eq_bind, Option.bind_some]
      split <;> exact ⟨_, rfl, rfl, rfl⟩

theorem changeChannels_some {sampleRate : BitVec 32} {now : Option Clock} {expired : Bool}
    {chs : List (Option Nat)} {flow : Flow} (h : flow.format.Fits chs.length) :
    ∃ flow', changeChannels sampleRate now expired chs flow = some flow' ∧
      flow'.format = flow.format ∧ flow'.channelIndices = chs := by
  unfold changeChannels
  cases now with
  | none => exact ⟨_, rfl, rfl, rfl⟩
  | some now =>
      dsimp only
      split
      · obtain ⟨ts, hboot⟩ := @Flow.Fits.bootstrap
          (Flow.keepAlive { flow with channelIndices := chs } now sampleRate) h now
        exact ⟨_, hboot, rfl, rfl⟩
      · exact ⟨_, rfl, rfl, rfl⟩

/-- The formats of a table with one entry replaced. -/
theorem formats_set {flows : List (Option Flow)} {index : Nat} (hlt : index < flows.length)
    (o : Option Flow) :
    formats (flows.set index o) = Function.update (formats flows) index (o.map Flow.format) := by
  funext i
  unfold formats
  by_cases hne : i = index
  · rw [hne, List.getElem?_set_self hlt, Function.update_self]
    cases o <;> rfl
  · rw [List.getElem?_set_ne (Ne.symm hne), Function.update_of_ne hne]

theorem TableFits.set {flows : List (Option Flow)} (h : TableFits flows) (index : Nat)
    {o : Option Flow} (ho : ∀ flow ∈ o, flow.Fits) : TableFits (flows.set index o) := by
  refine ⟨by rw [List.length_set, h.1], fun flow hflow => ?_⟩
  rcases List.mem_or_eq_of_mem_set hflow with hmem | rfl
  · exact h.2 flow hmem
  · exact ho flow rfl

/-- A command that fits is taken. -/
theorem handleCommand_fits {sampleRate : BitVec 32} {now : Option Clock}
    {flows : List (Option Flow)} {flags : Flag → Bool} (h : TableFits flows) {c : TxCommand}
    (hc : CommandFits (formats flows) c) :
    ∃ flows' flags', handleCommand sampleRate now flows flags c = some (flows', flags') ∧
      TableFits flows' ∧ formats flows' = formatsAfter (formats flows) c := by
  cases c with
  | noOp => exact ⟨flows, flags, rfl, h, rfl⟩
  | shutdown => exact ⟨flows, flags, rfl, h, rfl⟩
  | addFlow index socket chs fpp bytesPerSample needsKeepalives expired =>
      obtain ⟨hlt, _, hfits⟩ := hc
      rw [← h.1] at hlt
      obtain ⟨flow, hnew, hformat, hchs⟩ := @newFlow_some sampleRate now socket chs fpp
        bytesPerSample needsKeepalives expired hfits
      refine ⟨flows.set index (some flow), flags, ?_, h.set index ?_, ?_⟩
      · simp only [handleCommand, hnew, Option.bind_eq_bind, Option.bind_some, if_pos hlt]
      · intro flow' hflow'
        cases hflow'
        rw [Flow.Fits, hformat, hchs]
        exact hfits
      · rw [formats_set hlt, Option.map_some, hformat]
        rfl
  | removeFlow index =>
      have hlt : index < flows.length := h.1 ▸ hc
      exact ⟨flows.set index none, flags, if_pos hlt, h.set index (fun _ hf => by cases hf),
        formats_set hlt none⟩
  | setChannels index chs =>
      obtain ⟨f, hf, hfits⟩ := hc
      obtain ⟨flow, hflow, rfl⟩ : ∃ flow, flows[index]? = some (some flow) ∧ flow.format = f := by
        unfold formats at hf
        split at hf
        · next flow hflow => exact ⟨flow, hflow, Option.some.inj hf⟩
        · cases hf
      have hlt := (List.getElem?_eq_some_iff.mp hflow).1
      obtain ⟨flow', hchange, hformat, hchs⟩ := @changeChannels_some sampleRate now
        (flags flow.expired) chs flow hfits
      refine ⟨flows.set index (some flow'), Function.update flags flow'.expired false, ?_,
        h.set index ?_, ?_⟩
      · simp only [handleCommand, hflow, hchange, Option.bind_eq_bind, Option.bind_some]
      · intro flow'' hflow''
        cases hflow''
        rw [Flow.Fits, hformat, hchs]
        exact hfits
      · rw [formats_set hlt, Option.map_some, hformat]
        show _ = formats flows
        refine Function.update_eq_self_iff.mpr ?_
        simp only [formats, hflow]

/-! ## What the thread can send -/

/-- A channel is always read, whatever its ring. -/
theorem readChannel_some (src : TxSource) (startTs : Clock) {fpp : Nat} {tmp : List Sample}
    (hfpp : fpp ≤ tmp.length) :
    ∃ tmp', readChannel src startTs fpp tmp = some tmp' ∧ tmp'.length = tmp.length := by
  obtain ⟨out, r, hexec, hlen, hstart, hend⟩ :=
    RBOutput.readAt_succeeds src.shared src.mem startTs (tmp.take fpp)
  rw [List.length_take, Nat.min_eq_left hfpp] at hlen hstart hend
  obtain ⟨tmp', hread, hlen', _⟩ := readChannel_spec hfpp hexec hlen hstart hend
  exact ⟨tmp', hread, hlen'⟩

section

variable {cfg : TxConfig} {flow : Flow}

theorem writeChannel_tmpSamples (i : Nat) (b : TxBuffers) :
    (writeChannel flow i b).tmpSamples = b.tmpSamples := by
  unfold writeChannel
  split <;> rfl

theorem writeChannels_some (startTs : Clock) (chs : List (Option Nat)) (i : Nat) {b : TxBuffers}
    (hfpp : flow.fpp ≤ b.tmpSamples.length) :
    ∃ b', writeChannels cfg flow startTs chs i b = some b' ∧
      b'.tmpSamples.length = b.tmpSamples.length := by
  induction chs generalizing i b with
  | nil => exact ⟨b, rfl, rfl⟩
  | cons ch chs ih =>
      cases ch with
      | none => exact ih (i + 1) hfpp
      | some c =>
          rw [writeChannels]
          cases hsrc : cfg.channelsSources[c]? with
          | none => exact ih (i + 1) hfpp
          | some src =>
              obtain ⟨tmp', hread, hlen⟩ := readChannel_some src startTs hfpp
              simp only [hread, Option.bind_eq_bind, Option.bind_some]
              have htmp : (writeChannel flow i { b with tmpSamples := tmp' }).tmpSamples.length =
                  b.tmpSamples.length := by
                rw [writeChannel_tmpSamples]
                exact hlen
              obtain ⟨b', hrest, hlen'⟩ := ih (i + 1) (htmp ▸ hfpp)
              exact ⟨b', hrest, hlen'.trans htmp⟩

theorem buildPacket_some (hrate : cfg.sampleRate ≠ 0) {b : TxBuffers}
    (hfpp : flow.fpp ≤ b.tmpSamples.length) :
    ∃ b', buildPacket cfg flow b = some b' ∧ b'.tmpSamples.length = b.tmpSamples.length := by
  obtain ⟨pbuff, hhdr⟩ : ∃ pbuff, writeHeader cfg.sampleRate (flow.nextTs + cfg.clockOffsetSamples)
      b.pbuff = some pbuff := ⟨_, if_neg hrate⟩
  obtain ⟨b', hwrite, hlen⟩ := writeChannels_some (flow.nextTs + cfg.timestampShift)
    flow.channelIndices 0 (b := { b with pbuff := pbuff }) hfpp
  refine ⟨b', ?_, hlen⟩
  simp only [buildPacket, hhdr, Option.bind_eq_bind, Option.bind_some]
  exact hwrite

/-- What `transmit` does not change about a flow. -/
def Flow.shape (flow : Flow) : FlowFormat × List (Option Nat) := (flow.format, flow.channelIndices)

theorem Flow.Fits.of_shape {flow flow' : Flow} (hf : flow.Fits) (h : flow'.shape = flow.shape) :
    flow'.Fits := by
  obtain ⟨h1, h2⟩ := Prod.mk.inj h
  rw [Flow.Fits, h1, h2]
  exact hf

theorem sendPacket_some (hf : flow.Fits) (env : Outside) (st : TxRun) :
    ∃ flow' st', sendPacket env flow st = some (flow', st') ∧ flow'.shape = flow.shape ∧
      st'.buffers = st.buffers := by
  have hle : 9 + flow.stride * flow.fpp ≤ MTU := hf.packet_le
  simp only [sendPacket, if_pos hle]
  split <;> exact ⟨_, _, rfl, rfl, rfl⟩

theorem sendLoop_some (hrate : cfg.sampleRate ≠ 0) (hf : flow.Fits) (env : Outside) (now : Clock)
    (fuel : Nat) {st : TxRun}
    (htmp : st.buffers.tmpSamples.length = FPP_MAX) :
    ∃ flow' st' fin, sendLoop cfg env now fuel flow st = some (flow', st', fin) ∧
      flow'.shape = flow.shape ∧ st'.buffers.tmpSamples.length = FPP_MAX := by
  induction fuel generalizing flow st with
  | zero => exact ⟨_, _, _, rfl, rfl, htmp⟩
  | succ fuel ih =>
      rw [sendLoop]
      split
      · obtain ⟨b, hbuild, hlen⟩ := buildPacket_some hrate (htmp ▸ hf.fpp_le)
        obtain ⟨flow₁, st₁, hsend, hshape, hbuf⟩ := sendPacket_some hf env { st with buffers := b }
        simp only [hbuild, hsend, Option.bind_eq_bind, Option.bind_some]
        have htmp₂ : (awakeTooLong cfg env now st₁).2.buffers.tmpSamples.length = FPP_MAX := by
          rw [(awakeTooLong_eq env now st₁).1, hbuf]
          exact hlen.trans htmp
        split
        · exact ⟨_, _, _, rfl, hshape, htmp₂⟩
        · obtain ⟨flow', st', fin, hrest, hshape', htmp'⟩ := ih (hf.of_shape hshape) htmp₂
          exact ⟨flow', st', fin, hrest, hshape'.trans hshape, htmp'⟩
      · exact ⟨_, _, _, rfl, rfl, htmp⟩

theorem resync_some (hf : flow.Fits) (now : Clock) :
    ∃ flow', resync cfg now flow = some flow' ∧ flow'.shape = flow.shape := by
  have hboot : ∀ flow : Flow, flow.Fits → ∀ P : Prop, ∀ _ : Decidable P,
      ∃ flow', (if P then flow.bootstrapNextTs now else some flow) = some flow' ∧
        flow'.shape = flow.shape := by
    intro flow hf P _
    split
    · obtain ⟨ts, h⟩ := hf.bootstrap now
      exact ⟨_, h, rfl⟩
    · exact ⟨flow, rfl, rfl⟩
  obtain ⟨flow₁, h₁, hshape₁⟩ := hboot flow hf
    (wrappedDiff now flow.nextTs > cfg.maxLagSamples.toInt) inferInstance
  obtain ⟨flow₂, h₂, hshape₂⟩ := hboot flow₁ (hf.of_shape hshape₁)
    (wrappedDiff now flow.nextTs < -DISCONTINUITY_THRESHOLD_SAMPLES) inferInstance
  refine ⟨flow₂, ?_, hshape₂.trans hshape₁⟩
  rw [resync, h₁]
  exact h₂

theorem processKeepalive_shape (env : Outside) (now : Clock) (st : TxRun) :
    (processKeepalive cfg env now flow st).1.shape = flow.shape ∧
      (processKeepalive cfg env now flow st).2.buffers.tmpSamples = st.buffers.tmpSamples := by
  simp only [processKeepalive]
  split
  · exact ⟨rfl, rfl⟩
  · split
    · exact ⟨rfl, rfl⟩
    · split <;> exact ⟨rfl, rfl⟩

theorem transmitFlow_some (hrate : cfg.sampleRate ≠ 0) (hf : flow.Fits) (env : Outside)
    (now : Clock) (pe : Bool) (fuel : Nat) {st : TxRun}
    (htmp : st.buffers.tmpSamples.length = FPP_MAX) :
    ∃ flow' st' fin, transmitFlow cfg env now pe fuel flow st = some (flow', st', fin) ∧
      flow'.shape = flow.shape ∧ st'.buffers.tmpSamples.length = FPP_MAX := by
  rw [transmitFlow]
  split
  · exact ⟨_, _, _, rfl, rfl, htmp⟩
  · obtain ⟨flow₁, hsync, hshape₁⟩ := @resync_some cfg flow hf now
    have hf₁ := hf.of_shape hshape₁
    have hle : 9 + flow₁.stride * flow₁.fpp ≤ MTU := hf₁.packet_le
    obtain ⟨b, hclear, hb⟩ : ∃ b, clearPayload flow₁ st.buffers = some b ∧
        b.tmpSamples = st.buffers.tmpSamples := ⟨_, if_pos hle, rfl⟩
    obtain ⟨flow₂, st₂, fin, hloop, hshape₂, htmp₂⟩ := @sendLoop_some cfg flow₁ hrate hf₁ env
      now fuel { st with buffers := b } (by rw [hb]; exact htmp)
    have hshape := hshape₂.trans hshape₁
    simp only [hsync, hclear, hloop, Option.bind_eq_bind, Option.bind_some]
    split
    · obtain ⟨hshape₃, htmp₃⟩ := @processKeepalive_shape cfg flow₂ env now st₂
      exact ⟨_, _, _, rfl, hshape₃.trans hshape, by rw [htmp₃]; exact htmp₂⟩
    · exact ⟨_, _, _, rfl, hshape, htmp₂⟩

/-- A table of flows that fit is sent without a panic, whatever the clock. -/
theorem transmitFlows_some (hrate : cfg.sampleRate ≠ 0)
    {flows : List (Option Flow)}
    (hf : ∀ flow, some flow ∈ flows → flow.Fits) (env : Outside) (now : Clock) (pe : Bool)
    (fuel : Nat) {st : TxRun} (htmp : st.buffers.tmpSamples.length = FPP_MAX) :
    ∃ flows' st' fin, transmitFlows cfg env now pe fuel flows st = some (flows', st', fin) ∧
      flows'.map (Option.map Flow.shape) = flows.map (Option.map Flow.shape) := by
  induction flows generalizing st with
  | nil => exact ⟨_, _, _, rfl, rfl⟩
  | cons o flows ih =>
      have hrest := fun flow hmem => hf flow (List.mem_cons_of_mem _ hmem)
      cases o with
      | none =>
          obtain ⟨flows', st', fin, hrun, hsame⟩ := ih hrest htmp
          simp only [transmitFlows, hrun, Option.bind_eq_bind, Option.bind_some]
          exact ⟨_, _, _, rfl, congrArg (none :: ·) hsame⟩
      | some flow =>
          obtain ⟨flow', st₁, fin₁, hflow, hshape, htmp₁⟩ :=
            transmitFlow_some hrate (hf flow List.mem_cons_self) env now pe fuel htmp
          simp only [transmitFlows, hflow, Option.bind_eq_bind, Option.bind_some]
          split
          · obtain ⟨flows', st', fin, hrun, hsame⟩ := ih hrest htmp₁
            simp only [hrun, Option.bind_some]
            refine ⟨_, _, _, rfl, ?_⟩
            rw [List.map_cons, List.map_cons, hsame, Option.map_some, Option.map_some, hshape]
          · refine ⟨_, _, _, rfl, ?_⟩
            rw [List.map_cons, List.map_cons, Option.map_some, Option.map_some, hshape]

end

/-- The formats and the fit of a table depend on its shapes. -/
theorem formats_of_shape {flows flows' : List (Option Flow)}
    (h : flows'.map (Option.map Flow.shape) = flows.map (Option.map Flow.shape)) :
    formats flows' = formats flows := by
  have hformats : ∀ (l : List (Option Flow)) i,
      formats l i = ((l.map (Option.map Flow.shape))[i]?.join).map Prod.fst := by
    intro l i
    rw [List.getElem?_map, formats]
    rcases l[i]? with _ | _ | flow <;> rfl
  funext i
  rw [hformats, hformats, h]

theorem TableFits.of_shape {flows flows' : List (Option Flow)} (hf : TableFits flows)
    (h : flows'.map (Option.map Flow.shape) = flows.map (Option.map Flow.shape)) :
    TableFits flows' := by
  have hlen := congrArg List.length h
  rw [List.length_map, List.length_map] at hlen
  refine ⟨hlen.trans hf.1, fun flow' hflow' => ?_⟩
  have hmem : some flow'.shape ∈ flows.map (Option.map Flow.shape) := by
    rw [← h]
    exact List.mem_map.mpr ⟨some flow', hflow', rfl⟩
  obtain ⟨o, ho, hshape⟩ := List.mem_map.mp hmem
  obtain ⟨flow, rfl, hflow⟩ := Option.map_eq_some_iff.mp hshape
  exact (hf.2 flow ho).of_shape hflow.symm

/-! ## The server and the thread -/

/-- The control side, whether the server task is up, and the thread's table. -/
structure TxWorld where
  tx : FlowsTransmitter
  serverUp : Bool
  flows : List (Option Flow)

/-- What happens next: a datagram comes in, the thread takes a command, or it
calls `transmit` on the rings as they are then. -/
inductive TxEvent where
  | datagram (request : List Byte) (env : AddFlowEnv)
  | drain (now : Option Clock)
  | transmit (sources : List TxSource) (env : Outside) (now : Clock) (processEvents : Bool)
      (fuel : Nat) (ditherRng : DitherRng)

namespace TxWorld

def start (flags : Flag → Bool) : TxWorld where
  tx := .start flags
  serverUp := true
  flows := List.replicate MAX_FLOWS none

/-- A panic of the thread, which drops its end of the queue. -/
def crash (w : TxWorld) : TxWorld := { w with tx := { w.tx with receiverGone := true } }

def serve (selfInfo : DeviceInfo) (w : TxWorld) (request : List Byte) (env : AddFlowEnv) :
    TxWorld :=
  if w.serverUp then
    match handleDatagram selfInfo env request w.tx with
    | some (tx, _) => { w with tx := tx }
    | none => { w with serverUp := false }
  else w

def drain (cfg : TxConfig) (w : TxWorld) (now : Option Clock) : TxWorld :=
  match w.tx.commands with
  | [] => w
  | c :: cs =>
      match handleCommand cfg.sampleRate now w.flows w.tx.flags c with
      | some (flows, flags) =>
          { w with tx := { w.tx with commands := cs, flags := flags }, flows := flows }
      | none => w.crash

def transmit (cfg : TxConfig) (w : TxWorld) (sources : List TxSource) (env : Outside)
    (now : Clock) (processEvents : Bool) (fuel : Nat) (ditherRng : DitherRng) : TxWorld :=
  match Inferno.transmit { cfg with channelsSources := sources } env now processEvents fuel w.flows
    w.tx.flags ditherRng with
  | some (flows, st, _) => { w with tx := { w.tx with flags := st.flags }, flows := flows }
  | none => w.crash

/-- One event; a thread that is gone does nothing. -/
def step (selfInfo : DeviceInfo) (cfg : TxConfig) (w : TxWorld) : TxEvent → TxWorld
  | .datagram request env => w.serve selfInfo request env
  | .drain now => if w.tx.receiverGone then w else w.drain cfg now
  | .transmit sources env now processEvents fuel ditherRng =>
      if w.tx.receiverGone then w
      else w.transmit cfg sources env now processEvents fuel ditherRng

def run (selfInfo : DeviceInfo) (cfg : TxConfig) (w : TxWorld) (events : List TxEvent) : TxWorld :=
  events.foldl (step selfInfo cfg) w

def EventFits (selfInfo : DeviceInfo) (w : TxWorld) : TxEvent → Prop
  | .datagram request _ => Grants selfInfo (formats w.flows) w.tx request
  | _ => True

/-- Every event fits the world it happens in. -/
def RunFits (selfInfo : DeviceInfo) (cfg : TxConfig) : TxWorld → List TxEvent → Prop
  | _, [] => True
  | w, e :: es => w.EventFits selfInfo e ∧ RunFits selfInfo cfg (w.step selfInfo cfg e) es

instance (selfInfo : DeviceInfo) (w : TxWorld) : (e : TxEvent) → Decidable (w.EventFits selfInfo e)
  | .datagram request _ =>
      inferInstanceAs (Decidable (Grants selfInfo (formats w.flows) w.tx request))
  | .drain _ => isTrue trivial
  | .transmit _ _ _ _ _ _ => isTrue trivial

instance decidableRunFits (selfInfo : DeviceInfo) (cfg : TxConfig) :
    (w : TxWorld) → (events : List TxEvent) → Decidable (RunFits selfInfo cfg w events)
  | _, [] => isTrue trivial
  | w, e :: es =>
      have := decidableRunFits selfInfo cfg (w.step selfInfo cfg e) es
      inferInstanceAs (Decidable (_ ∧ _))

/-- The thread is there, and no later clock value makes it panic: its flows
fit, so that no remainder is by zero and no slice out of range. -/
structure Safe (cfg : TxConfig) (w : TxWorld) : Prop where
  alive : w.tx.receiverGone = false
  fits : ∀ flow, some flow ∈ w.flows → flow.Fits
  bootstrap : ∀ flow, some flow ∈ w.flows → ∀ now, (flow.bootstrapNextTs now).isSome
  transmit : ∀ sources env now processEvents fuel ditherRng,
    (Inferno.transmit { cfg with channelsSources := sources } env now processEvents fuel w.flows
      w.tx.flags ditherRng).isSome

/-- The invariant behind it. -/
structure Sound (w : TxWorld) : Prop where
  consistent : w.tx.Consistent (formats w.flows)
  table : TableFits w.flows

theorem sound_start (flags : Flag → Bool) : (start flags).Sound where
  consistent := by
    have hnone : formats (List.replicate MAX_FLOWS none) = fun _ => none := by
      funext i
      unfold formats
      split
      · next hflow => cases (List.mem_replicate.mp (List.mem_of_getElem? hflow)).2
      · rfl
    show FlowsTransmitter.Consistent (formats (List.replicate MAX_FLOWS none)) (.start flags)
    rw [hnone]
    exact FlowsTransmitter.start_consistent flags
  table := ⟨List.length_replicate, fun flow hflow => by cases (List.mem_replicate.mp hflow).2⟩

theorem Sound.safe {cfg : TxConfig} (hrate : cfg.sampleRate ≠ 0) {w : TxWorld} (h : w.Sound) :
    w.Safe cfg where
  alive := h.consistent.receiver
  fits := h.table.2
  bootstrap := fun flow hflow now => by
    obtain ⟨ts, hboot⟩ := (h.table.2 flow hflow).bootstrap now
    rw [hboot]
    rfl
  transmit := fun sources env now pe fuel rng => by
    obtain ⟨flows', st', fin, hrun, _⟩ := @transmitFlows_some { cfg with channelsSources := sources }
      hrate w.flows h.table.2 env now pe fuel (.begin w.tx.flags rng)
      List.length_replicate
    rw [Inferno.transmit, hrun]
    rfl

theorem Sound.serve {selfInfo : DeviceInfo} {w : TxWorld} (h : w.Sound) {request : List Byte}
    (hfits : Grants selfInfo (formats w.flows) w.tx request) (env : AddFlowEnv) :
    (w.serve selfInfo request env).Sound := by
  unfold TxWorld.serve
  split
  · cases hrun : handleDatagram selfInfo env request w.tx with
    | none => exact ⟨h.consistent, h.table⟩
    | some r => exact ⟨handleDatagram_consistent h.consistent hfits hrun, h.table⟩
  · exact h

theorem Sound.drain {cfg : TxConfig} {w : TxWorld} (h : w.Sound) (now : Option Clock) :
    (w.drain cfg now).Sound := by
  unfold TxWorld.drain
  have hqueue := h.consistent.queue
  have hpending := h.consistent.pending
  cases hcs : w.tx.commands with
  | nil => exact h
  | cons c cs =>
      rw [hcs] at hqueue hpending
      obtain ⟨flows', flags', hrun, htable, hformats⟩ :=
        @handleCommand_fits cfg.sampleRate now w.flows w.tx.flags h.table c hqueue.1
      simp only [hrun]
      refine ⟨⟨?_, ?_, ?_, h.consistent.receiver⟩, htable⟩
      · obtain ⟨h1, h2, h3, h4, h5⟩ := h.consistent.tables
        exact ⟨h1, h2, h3, h4, h5⟩
      · rw [hformats]
        exact hqueue.2
      · rw [hformats]
        exact hpending

theorem Sound.transmit {cfg : TxConfig} (hrate : cfg.sampleRate ≠ 0) {w : TxWorld} (h : w.Sound)
    (sources : List TxSource) (env : Outside) (now : Clock)
    (pe : Bool) (fuel : Nat) (rng : DitherRng) :
    (w.transmit cfg sources env now pe fuel rng).Sound := by
  obtain ⟨flows', st', fin, hrun, hsame⟩ := @transmitFlows_some { cfg with channelsSources := sources }
    hrate w.flows h.table.2 env now pe fuel (.begin w.tx.flags rng) List.length_replicate
  simp only [TxWorld.transmit, Inferno.transmit, hrun]
  refine ⟨?_, h.table.of_shape hsame⟩
  rw [formats_of_shape hsame]
  exact h.consistent.congr rfl rfl rfl rfl rfl

theorem Sound.step {selfInfo : DeviceInfo} {cfg : TxConfig} (hrate : cfg.sampleRate ≠ 0)
    {w : TxWorld} (h : w.Sound) {e : TxEvent} (hfits : w.EventFits selfInfo e) :
    (w.step selfInfo cfg e).Sound := by
  cases e with
  | datagram request env => exact h.serve hfits env
  | drain now =>
      rw [TxWorld.step, if_neg (by rw [h.consistent.receiver]; exact Bool.false_ne_true)]
      exact h.drain now
  | transmit sources env now pe fuel rng =>
      rw [TxWorld.step, if_neg (by rw [h.consistent.receiver]; exact Bool.false_ne_true)]
      exact h.transmit hrate sources env now pe fuel rng

theorem Sound.run {selfInfo : DeviceInfo} {cfg : TxConfig} (hrate : cfg.sampleRate ≠ 0)
    {w : TxWorld} (h : w.Sound) {events : List TxEvent} (hfits : RunFits selfInfo cfg w events) :
    (w.run selfInfo cfg events).Sound := by
  induction events generalizing w with
  | nil => exact h
  | cons e events ih => exact ih (h.step hrate hfits.1) hfits.2

end TxWorld

open TxWorld in
/-- In a run whose datagrams grant only what fits, the thread lives, every
flow it holds fits, and `transmit` has no panic at any later clock value. -/
theorem accepted_flows_fit (selfInfo : DeviceInfo) (cfg : TxConfig) (hrate : cfg.sampleRate ≠ 0)
    (flags : Flag → Bool) (events : List TxEvent)
    (hfits : RunFits selfInfo cfg (start flags) events) :
    Safe cfg (run selfInfo cfg (start flags) events) :=
  ((sound_start flags).run hrate hfits).safe hrate

/-- A request for `fpp` samples a packet of the first channel, three bytes
each, from host `a` for its flow `b` at 10.0.0.1:14336. -/
def sampleRequest (fpp : Byte) : List Byte :=
  [0x11, 0x02, 0x00, 0x32, 0x00, 0x01, 0x01, 0x00, 0x00, 0x00] ++
  [0x00, 0x26, 0x00, 0x00, 0xbb, 0x80, 0x00, 0x00, 0x00, 0x18, 0x00, 0x01, 0x00, 0x01, 0x00, 0x2a,
    0x00, 0x01, 0x00, 0x00, 0x00, 0x00, 0x00, 0x00, 0x00, fpp, 0x00, 0x28, 0x61, 0x00, 0x62, 0x00,
    0x08, 0x02, 0x38, 0x00, 0x0a, 0x00, 0x00, 0x01]

/-- An update of the flow with index 0 and cookie 7 to the first two channels. -/
def sampleUpdate : List Byte :=
  [0x11, 0x02, 0x00, 0x16, 0x00, 0x02, 0x01, 0x02, 0x00, 0x00] ++
  [0x00, 0x00, 0x00, 0x00, 0x00, 0x07, 0x00, 0x02, 0x00, 0x01, 0x00, 0x02]

def sampleInfo : DeviceInfo := ⟨48000, 2⟩

def sampleConfig : TxConfig := ⟨48000, [], 0, 4800, 0⟩

open TxWorld in
theorem accepted_flows_fit_updated :
    ∃ flow, (run sampleInfo sampleConfig (start fun _ => false)
        [.datagram (sampleRequest 16) ⟨7, true⟩, .drain (some 1000), .datagram sampleUpdate ⟨0, true⟩,
          .drain (some 1001)]).flows[0]? = some (some flow) ∧
      flow.channelIndices = [some 0, some 1] ∧ 9 + 2 * flow.bytesPerSample * flow.fpp ≤ MTU := by
  have hsafe := accepted_flows_fit sampleInfo sampleConfig (by decide) (fun _ => false)
    [.datagram (sampleRequest 16) ⟨7, true⟩, .drain (some 1000), .datagram sampleUpdate ⟨0, true⟩,
      .drain (some 1001)]
    (by decide)
  have htwo : ((run sampleInfo sampleConfig (start fun _ => false)
      [.datagram (sampleRequest 16) ⟨7, true⟩, .drain (some 1000), .datagram sampleUpdate ⟨0, true⟩,
        .drain (some 1001)]).flows[0]?.join.map Flow.channelIndices) = some [some 0, some 1] := by
    decide
  obtain ⟨flow, hflow, hchs⟩ := Option.map_eq_some_iff.mp htwo
  have hget := Option.join_eq_some_iff.mp hflow
  have hfits := (hsafe.fits flow (List.mem_of_getElem? hget)).packet_le
  rw [hchs] at hfits
  exact ⟨flow, hget, hchs, hfits⟩

open TxWorld in
/-- A request for no samples a packet is granted, and the thread divides by
zero when it takes the flow over. -/
theorem zero_fpp_kills :
    ¬ ∀ events, Safe sampleConfig (run sampleInfo sampleConfig (start fun _ => false) events) := by
  intro h
  have halive := (h [.datagram (sampleRequest 0) ⟨7, true⟩, .drain (some 1000)]).alive
  have hgone : (run sampleInfo sampleConfig (start fun _ => false)
      [.datagram (sampleRequest 0) ⟨7, true⟩, .drain (some 1000)]).tx.receiverGone = true := by
    decide
  rw [hgone] at halive
  cases halive

end Inferno
