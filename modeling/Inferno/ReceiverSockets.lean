import Inferno.ChannelMaps
import Inferno.Lib.Outbox

/-!
# The sockets behind the commands

`FlowsReceiver` notes at once what a flow's socket will be, and its thread has
the socket after the command. Each command changes the sockets in one place, so
what is noted is what the thread will have when the commands are done, as long
as no command is for a place it does not fit (`Synced`).
-/

namespace Inferno

/-- The slots and the latency of a socket. -/
def RxSocket.shape (socket : RxSocket) : Nat × Nat := (socket.channels.length, socket.latencySamples)

/-- The slots and the latency of a flow, as noted. -/
def RxFlowInfo.shape (info : RxFlowInfo) : Nat × Nat := (info.channelsMap.length, info.latencySamples)

/-- What a command makes of the sockets. -/
def RxCommand.after (sockets : Nat → Option (Nat × Nat)) : RxCommand → Nat → Option (Nat × Nat)
  | .addSocket index socket => Function.update sockets index (some socket.shape)
  | .removeSocket index => Function.update sockets index none
  | .connectChannel .. => sockets
  | .disconnectChannel .. => sockets

/-- A socket goes to a free place, and goes from where it is. -/
def RxCommand.Takes (sockets : Nat → Option (Nat × Nat)) : RxCommand → Prop
  | .addSocket index _ => index < MAX_FLOWS ∧ sockets index = none
  | .removeSocket index => (sockets index).isSome
  | .connectChannel .. => True
  | .disconnectChannel .. => True

namespace FlowsReceiver

/-- The sockets of the thread. -/
def socketShapes (rx : FlowsReceiver) (f : Nat) : Option (Nat × Nat) :=
  (rx.sockets[f]?.join).map RxSocket.shape

/-- The flows that are noted. -/
def infoShapes (rx : FlowsReceiver) (f : Nat) : Option (Nat × Nat) :=
  (rx.flowsInfo[f]?.join).map RxFlowInfo.shape

/-- The commands fit, and lead to what is noted. -/
structure Synced (rx : FlowsReceiver) : Prop where
  places : rx.flowsInfo.length = MAX_FLOWS
  sockets : rx.sockets.length = MAX_FLOWS
  accepted : Outbox.Accepted RxCommand.after RxCommand.Takes rx.socketShapes rx.commands
  drained : Outbox.drained RxCommand.after rx.socketShapes rx.commands = rx.infoShapes

variable {rx rx' : FlowsReceiver}

theorem synced_start (maxChannels : Nat) (startTimestamp : Option Clock) :
    (start maxChannels startTimestamp).Synced where
  places := List.length_replicate
  sockets := List.length_replicate
  accepted := trivial
  drained := by
    funext f
    show Option.map _ _ = Option.map _ _
    simp only [start, List.getElem?_replicate]
    split <;> rfl

theorem shapes_set {β : Type} (shape : β → Nat × Nat) {l : List (Option β)} {i : Nat}
    (hi : i < l.length) (o : Option β) :
    (fun f : Nat => (((l.set i o)[f]?).join).map shape) =
      Function.update (fun f : Nat => ((l[f]?).join).map shape) i (o.map shape) := by
  funext f
  rw [join_set hi]
  by_cases hf : f = i
  · rw [if_pos hf, hf, Function.update_self]
  · rw [if_neg hf, Function.update_of_ne hf]

/-- An entry that keeps its shape. -/
theorem shapes_set_same {β : Type} (shape : β → Nat × Nat) {l : List (Option β)} {i : Nat} {x : β}
    (hx : l[i]?.join = some x) (y : β) (hshape : shape y = shape x) :
    (fun f : Nat => (((l.set i (some y))[f]?).join).map shape) =
      fun f : Nat => ((l[f]?).join).map shape := by
  rw [shapes_set shape (join_lt hx), Option.map_some, hshape]
  have hold : some (shape x) = ((l[i]?).join).map shape := by rw [hx, Option.map_some]
  rw [hold]
  exact Function.update_eq_self i fun f : Nat => ((l[f]?).join).map shape

/-! ## Calls -/

/-- A call that notes something and sends the command for it. -/
theorem Synced.send (h : rx.Synced) {c : RxCommand} (hcommands : rx'.commands = rx.commands ++ [c])
    (hplaces : rx'.flowsInfo.length = rx.flowsInfo.length) (hsockets : rx'.sockets = rx.sockets)
    (htakes : c.Takes rx.infoShapes) (hinfo : rx'.infoShapes = c.after rx.infoShapes) :
    rx'.Synced := by
  have hshapes : rx'.socketShapes = rx.socketShapes := by
    funext f
    rw [socketShapes, socketShapes, hsockets]
  refine ⟨hplaces.trans h.places, by rw [hsockets, h.sockets], ?_, ?_⟩
  · rw [hshapes, hcommands]
    refine h.accepted.snoc ?_
    rw [h.drained]
    exact htakes
  · rw [hshapes, hcommands, Outbox.drained_snoc, h.drained, hinfo]

theorem Synced.addSocket (h : rx.Synced) {f : Nat} (hf : f < MAX_FLOWS)
    (hnone : rx.infoShapes f = none) (sendKeepalives : Bool)
    (bytesPerSample channelsCount latencySamples : Nat) :
    (rx.addSocket f sendKeepalives bytesPerSample channelsCount latencySamples).Synced ∧
      (rx.addSocket f sendKeepalives bytesPerSample channelsCount latencySamples).infoShapes =
        Function.update rx.infoShapes f (some (channelsCount, latencySamples)) := by
  have hlt : f < rx.flowsInfo.length := h.places.symm ▸ hf
  unfold FlowsReceiver.addSocket
  rw [if_neg (Nat.not_le.mpr hlt)]
  have hinfo := shapes_set RxFlowInfo.shape hlt (some ⟨List.replicate channelsCount
    (List.replicate rx.maxChannels false), latencySamples⟩)
  rw [Option.map_some, RxFlowInfo.shape, List.length_replicate] at hinfo
  refine ⟨h.send rfl List.length_set rfl ⟨hf, hnone⟩ ?_, hinfo⟩
  rw [RxCommand.after, RxSocket.shape, List.length_replicate]
  exact hinfo

theorem Synced.removeSocket (h : rx.Synced) {f : Nat} (hsome : (rx.infoShapes f).isSome) :
    (rx.removeSocket f).Synced ∧
      (rx.removeSocket f).infoShapes = Function.update rx.infoShapes f none := by
  obtain ⟨shape, hshape⟩ := Option.isSome_iff_exists.mp hsome
  obtain ⟨info, hget, _⟩ := Option.map_eq_some_iff.mp hshape
  have hlt := join_lt hget
  unfold FlowsReceiver.removeSocket
  rw [if_neg (Nat.not_le.mpr hlt)]
  have hinfo := shapes_set RxFlowInfo.shape hlt none
  exact ⟨h.send rfl List.length_set rfl hsome hinfo, hinfo⟩

theorem Synced.connectChannel (h : rx.Synced) (f c chi : Nat) (sink : RingId) :
    (rx.connectChannel f c chi sink).Synced ∧
      (rx.connectChannel f c chi sink).infoShapes = rx.infoShapes := by
  unfold FlowsReceiver.connectChannel
  rcases rx.mapChannel_cases f c chi true with ⟨hmap, _⟩ | ⟨info, hinfo, _, hmap⟩
  · rw [hmap]
    exact ⟨h, rfl⟩
  · rw [hmap]
    have hshapes := shapes_set_same RxFlowInfo.shape hinfo
      { info with channelsMap := info.channelsMap.modify c (·.set chi true) }
      (by rw [RxFlowInfo.shape, List.length_modify]; rfl)
    exact ⟨h.send (c := .connectChannel f c sink) rfl List.length_set rfl trivial hshapes, hshapes⟩

theorem Synced.disconnectChannel (h : rx.Synced) (f c chi : Nat) (rbShared : RingId) :
    (rx.disconnectChannel f c chi rbShared).Synced ∧
      (rx.disconnectChannel f c chi rbShared).infoShapes = rx.infoShapes := by
  unfold FlowsReceiver.disconnectChannel
  rcases rx.mapChannel_cases f c chi false with ⟨hmap, _⟩ | ⟨info, hinfo, _, hmap⟩
  · rw [hmap]
    exact ⟨h, rfl⟩
  · rw [hmap]
    have hshapes := shapes_set_same RxFlowInfo.shape hinfo
      { info with channelsMap := info.channelsMap.modify c (·.set chi false) }
      (by rw [RxFlowInfo.shape, List.length_modify]; rfl)
    exact ⟨h.send (c := .disconnectChannel f c rbShared) rfl List.length_set rfl trivial hshapes,
      hshapes⟩

/-! ## The thread -/

theorem pushSink_shape {socket socket' : RxSocket} {c : Nat} {sink : RingId} {shift : Clock}
    (h : pushSink socket c sink shift = some socket') : socket'.shape = socket.shape := by
  unfold pushSink at h
  split at h
  · cases h
  · cases h
    rw [RxSocket.shape, List.length_set]
    rfl
  · split at h
    · cases h
    · cases h
      rw [RxSocket.shape, List.length_set]
      rfl

/-- The thread does what a command says. -/
theorem handle_shapes {now : Option Clock} {ringSize : RingId → Nat} {c : RxCommand}
    (h : rx.handle now ringSize c = some rx') :
    rx'.socketShapes = c.after rx.socketShapes ∧ rx'.sockets.length = rx.sockets.length ∧
      rx'.commands = rx.commands := by
  cases handled_of_handle h with
  | added hindex => exact ⟨shapes_set RxSocket.shape hindex _, List.length_set, rfl⟩
  | removed hsocket => exact ⟨shapes_set RxSocket.shape (join_lt hsocket) _, List.length_set, rfl⟩
  | notConnected | notDisconnected => exact ⟨rfl, rfl, rfl⟩
  | connected hsocket hc hpush =>
      exact ⟨shapes_set_same RxSocket.shape hsocket _ (pushSink_shape hpush), List.length_set, rfl⟩
  | disconnected hsocket hch hi =>
      refine ⟨shapes_set_same RxSocket.shape hsocket _ ?_, List.length_set, rfl⟩
      rw [RxSocket.shape, List.length_set]
      rfl

theorem Synced.takeCommand (h : rx.Synced) {now : Option Clock} {ringSize : RingId → Nat}
    (hrun : rx.takeCommand now ringSize = some rx') :
    rx'.Synced ∧ rx'.infoShapes = rx.infoShapes := by
  unfold FlowsReceiver.takeCommand at hrun
  split at hrun
  · cases hrun
  next c cs hcommands =>
  obtain ⟨hinfo, _⟩ := handle_flowsInfo hrun
  obtain ⟨hshapes, hlen, hrest⟩ := handle_shapes hrun
  have hsame : rx'.infoShapes = rx.infoShapes := by
    funext f
    rw [infoShapes, infoShapes, hinfo]
  have haccepted := h.accepted
  have hdrained := h.drained
  rw [hcommands] at haccepted hdrained
  refine ⟨⟨by rw [hinfo]; exact h.places, hlen.trans h.sockets, ?_, ?_⟩, hsame⟩
  · rw [hshapes, hrest]
    exact haccepted.2
  · rw [hshapes, hrest, hsame, ← hdrained]
    rfl

end FlowsReceiver

end Inferno
