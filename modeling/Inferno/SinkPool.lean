import Inferno.Lib.Slots
import Inferno.ReceiverThread

/-!
# The vectors for sinks, and where a ring is

A socket comes with an empty vector for each of its slots. A connect takes one
for a free slot, and no command frees a slot, so that there is one for every
free slot at any time (`Stocked`). A sink goes from a connect to a slot, from
there to a silence writer and back, so that no ring is in two places as long as
no ring is connected that is a sink (`Apart`).
-/

namespace Inferno

/-! ## One socket -/

namespace RxSocket

variable {socket : RxSocket} {c : Nat}

/-- The sinks of a socket's channels. -/
def sinkIds (socket : RxSocket) : List RingId := Slots.held RxChannel.sinks socket.channels

/-- There is an empty vector for every free slot. -/
structure Stocked (socket : RxSocket) : Prop where
  length : socket.emptySinksVecs.length = Slots.free socket.channels
  prepared : socket.Prepared

/-- The channel of a slot that is taken gets other sinks. -/
theorem Stocked.setChannel (h : socket.Stocked) {ch : RxChannel RingId}
    (hch : socket.channels[c]? = some (some ch)) (ch' : RxChannel RingId) :
    Stocked { socket with channels := socket.channels.set c (some ch') } ∧
      ∀ r, (sinkIds { socket with channels := socket.channels.set c (some ch') }).count r +
        ch.sinks.count r = socket.sinkIds.count r + ch'.sinks.count r := by
  refine ⟨⟨?_, h.prepared⟩, fun r => ?_⟩
  · have hfree := Slots.free_set hch (some ch')
    simp only [Option.isNone_some, Bool.false_eq_true, if_false, Nat.add_zero] at hfree
    rw [h.length, hfree]
  · have hcount := Slots.count_held_set RxChannel.sinks hch (some ch') r
    simpa [sinkIds] using hcount

/-- A sink is added to a slot that is there, free or taken. -/
theorem Stocked.pushSink (h : socket.Stocked) (hc : c < socket.channels.length) (sink : RingId)
    (shift : Clock) :
    ∃ socket', FlowsReceiver.pushSink socket c sink shift = some socket' ∧ socket'.Stocked ∧
      ∀ r, socket'.sinkIds.count r = socket.sinkIds.count r + [sink].count r := by
  cases hget : socket.channels[c] with
  | some ch =>
      have hch : socket.channels[c]? = some (some ch) := by
        rw [List.getElem?_eq_getElem hc, hget]
      have hset := h.setChannel hch { ch with sinks := ch.sinks ++ [sink] }
      refine ⟨_, by rw [FlowsReceiver.pushSink, hch], hset.1, fun r => ?_⟩
      have hcount := hset.2 r
      rw [List.count_append] at hcount
      omega
  | none =>
      have hch : socket.channels[c]? = some none := by
        rw [List.getElem?_eq_getElem hc, hget]
      have hfree := fun ch => Slots.free_set hch (some ch)
      simp only [Option.isNone_none, if_true, Option.isNone_some, Bool.false_eq_true, if_false,
        Nat.add_zero] at hfree
      -- a slot is free, so that a vector is left for it
      have hne : socket.emptySinksVecs ≠ [] := by
        intro hnil
        have hlength := h.length
        rw [hnil, ← hfree ⟨[], 0, 0⟩] at hlength
        simp at hlength
      have hlast := List.getLast?_eq_some_getLast hne
      have hempty := h.prepared _ (List.getLast_mem hne)
      refine ⟨_, by rw [FlowsReceiver.pushSink, hch]; dsimp only; rw [hlast, hempty], ⟨?_, ?_⟩,
        fun r => ?_⟩
      · dsimp only
        rw [List.length_dropLast, h.length, ← hfree]
        exact Nat.add_sub_cancel _ 1
      · exact fun v hv => h.prepared v (List.mem_of_mem_dropLast hv)
      · have hcount := fun ch => Slots.count_held_set RxChannel.sinks hch (some ch) r
        simpa [sinkIds] using hcount ⟨[sink], shift, BitVec.ofNat 64 socket.latencySamples⟩

theorem Stocked.shiftFrom (h : socket.Stocked) (startTime : Clock) :
    (socket.shiftFrom startTime).Stocked :=
  ⟨h.length.trans (Slots.free_map _).symm, h.prepared⟩

theorem sinkIds_shiftFrom (startTime : Clock) (socket : RxSocket) :
    (socket.shiftFrom startTime).sinkIds = socket.sinkIds := Slots.held_map fun _ => rfl

end RxSocket

/-! ## Commands -/

/-- There is a place for the socket that is added, and one that is removed. -/
def RxCommand.Placed (rx : FlowsReceiver) : RxCommand → Prop
  | .addSocket index _ => index < rx.sockets.length
  | .removeSocket index => (rx.sockets[index]?.join).isSome
  | .connectChannel .. | .disconnectChannel .. => True

theorem RxCommand.Built.stocked {index : Nat} {socket : RxSocket}
    (h : (RxCommand.addSocket index socket).Built) : socket.Stocked ∧ socket.sinkIds = [] := by
  rcases h with ⟨channelsCount, hchannels, hvecs⟩
  refine ⟨⟨?_, fun v hv => ?_⟩, ?_⟩
  · rw [hchannels, hvecs, Slots.free_replicate, List.length_replicate]
  · rw [hvecs] at hv
    exact List.eq_of_mem_replicate hv
  · rw [RxSocket.sinkIds, hchannels, Slots.held_replicate]

namespace FlowsReceiver

variable {rx rx' : FlowsReceiver} {now : Option Clock} {ringSize : RingId → Nat}

/-- Every socket is stocked. -/
def Stocked (rx : FlowsReceiver) : Prop :=
  ∀ (f : Nat) socket, rx.sockets[f]?.join = some socket → socket.Stocked

/-- No ring is in two places, among the sinks and the silence writers. -/
def Apart (rx : FlowsReceiver) : Prop :=
  (rx.sinkIds ++ rx.silenceWriters.map SilenceWriter.sink).Nodup

theorem apart_iff : rx.Apart ↔
    ∀ r, rx.sinkIds.count r + (rx.silenceWriters.map SilenceWriter.sink).count r ≤ 1 := by
  rw [Apart, List.nodup_iff_count_le_one]
  simp only [List.count_append]

/-- A socket that takes a place. -/
theorem Stocked.set (h : rx.Stocked) {f : Nat} {o : Option RxSocket} (hf : f < rx.sockets.length)
    (ho : ∀ socket ∈ o, socket.Stocked) (writers : List SilenceWriter) :
    Stocked { rx with sockets := rx.sockets.set f o, silenceWriters := writers } := by
  intro f' socket hget
  dsimp only at hget
  rw [join_set hf] at hget
  split at hget
  · exact ho socket hget
  · exact h f' socket hget

theorem count_sinkIds_set {f : Nat} (hf : f < rx.sockets.length) (o : Option RxSocket)
    (writers : List SilenceWriter) (r : RingId) :
    (sinkIds { rx with sockets := rx.sockets.set f o, silenceWriters := writers }).count r +
        ((rx.sockets[f]?.join.map RxSocket.sinkIds).getD []).count r =
      rx.sinkIds.count r + ((o.map RxSocket.sinkIds).getD []).count r := by
  have hheld : ∀ o : Option RxSocket, o.toList.flatMap RxSocket.sinkIds =
      (o.map RxSocket.sinkIds).getD [] := by
    intro o
    cases o <;> simp
  have hcount := Slots.count_held_set RxSocket.sinkIds (List.getElem?_eq_getElem hf) o r
  rw [hheld, hheld] at hcount
  rw [List.getElem?_eq_getElem hf]
  exact hcount

/-- A writer that has the ring gives it up. -/
theorem count_takeSink (rx : FlowsReceiver) (sink r : RingId) :
    ((rx.takeSink sink).2.map SilenceWriter.sink).count r =
      (rx.silenceWriters.map SilenceWriter.sink).count r - [sink].count r := by
  unfold takeSink
  split
  · next k hk =>
      rcases List.findIdx?_eq_some_iff_getElem.mp hk with ⟨hlt, hget, _⟩
      have hperm := (perm_cons_swapRemove (List.getElem?_eq_getElem hlt)).map SilenceWriter.sink
      have hsink : rx.silenceWriters[k].sink = sink := by simpa using hget
      rw [hperm.count_eq, List.map_cons, hsink, List.count_cons, List.count_singleton]
      exact (Nat.add_sub_cancel _ _).symm
  · next hnone =>
      rw [List.count_singleton]
      split
      · next hr =>
          have hzero : (rx.silenceWriters.map SilenceWriter.sink).count r = 0 := by
            rw [List.count_eq_zero]
            intro hmem
            rcases List.mem_map.mp hmem with ⟨sw, hsw, hring⟩
            have hne := List.findIdx?_eq_none_iff.mp hnone sw hsw
            simp_all
          rw [hzero]
      · rfl

/-- A command keeps every socket stocked. -/
theorem Stocked.handle (h : rx.Stocked) {c : RxCommand} (hbuilt : c.Built)
    (hrun : rx.handle now ringSize c = some rx') : rx'.Stocked := by
  cases handled_of_handle hrun with
  | added hindex =>
      refine h.set hindex (fun socket hsocket => ?_) rx.silenceWriters
      obtain rfl := Option.some.inj hsocket
      exact hbuilt.stocked.1
  | removed hsocket =>
      exact h.set (join_lt hsocket) (fun socket hnone => by cases hnone) rx.silenceWriters
  | notConnected | notDisconnected => exact h
  | @connected index c sink socket socket' hsocket hslot hpush =>
      rcases (h index socket hsocket).pushSink hslot sink _ with ⟨_, hpush', hstocked, _⟩
      obtain rfl := Option.some.inj (hpush.symm.trans hpush')
      refine h.set (join_lt hsocket) (fun socket hsome => ?_) _
      obtain rfl := Option.some.inj hsome
      exact hstocked
  | @disconnected index c i rbShared socket ch hsocket hch =>
      refine h.set (join_lt hsocket) (fun socket' hsome => ?_) _
      obtain rfl := Option.some.inj hsome
      exact ((h index socket hsocket).setChannel (Option.join_eq_some_iff.mp hch) _).1

/-- A command panics for its place alone: there is a vector for every connect. -/
theorem Stocked.handle_isSome_iff (h : rx.Stocked) (c : RxCommand) :
    (rx.handle now ringSize c).isSome ↔ c.Placed rx := by
  cases c with
  | addSocket index socket =>
      rw [FlowsReceiver.handle, RxCommand.Placed]
      split
      · next hlt => exact iff_of_true rfl hlt
      · next hge => exact iff_of_false Bool.false_ne_true hge
  | removeSocket index =>
      rw [FlowsReceiver.handle, RxCommand.Placed]
      cases rx.sockets[index]?.join <;> simp
  | connectChannel index c sink =>
      refine iff_of_true ?_ trivial
      rw [FlowsReceiver.handle]
      cases hsocket : rx.sockets[index]?.join with
      | none => rfl
      | some socket =>
          dsimp only
          split
          · rfl
          · next hslot =>
              rcases (h index socket hsocket).pushSink (Nat.not_le.mp hslot) sink
                (BitVec.ofNat 64 socket.latencySamples - rx.startTimestamp.getD 0) with
                ⟨socket', hpush, _⟩
              rw [takeSink_fst, hpush]
              rfl
  | disconnectChannel index c rbShared =>
      refine iff_of_true ?_ trivial
      rw [FlowsReceiver.handle]
      split
      · rfl
      split
      · rfl
      split <;> rfl

/-- A command keeps rings apart, if it does not connect one that is a sink. -/
theorem Apart.handle (hapart : rx.Apart) (h : rx.Stocked) {c : RxCommand} (hbuilt : c.Built)
    (hfree : ∀ f i sink, c = .connectChannel f i sink → sink ∉ rx.sinkIds)
    (hrun : rx.handle now ringSize c = some rx') : rx'.Apart := by
  rw [apart_iff] at hapart ⊢
  intro r
  have hr := hapart r
  cases handled_of_handle hrun with
  | @added index socket hindex =>
      have hcount := rx.count_sinkIds_set hindex (some socket) rx.silenceWriters r
      rw [Option.map_some, Option.getD_some, hbuilt.stocked.2, List.count_nil] at hcount
      dsimp only at hcount ⊢
      omega
  | @removed index socket hsocket =>
      have hcount := rx.count_sinkIds_set (join_lt hsocket) none rx.silenceWriters r
      rw [Option.map_none, Option.getD_none, List.count_nil] at hcount
      dsimp only at hcount ⊢
      omega
  | notConnected | notDisconnected => exact hr
  | @connected index c sink socket socket' hsocket hslot hpush =>
      rcases (h index socket hsocket).pushSink hslot sink _ with ⟨_, hpush', _, hnew⟩
      obtain rfl := Option.some.inj (hpush.symm.trans hpush')
      have hcount := rx.count_sinkIds_set (join_lt hsocket) (some socket') (rx.takeSink sink).2 r
      have hwriters := rx.count_takeSink sink r
      have hsink := List.count_eq_zero.mpr (hfree index c sink rfl)
      rw [hsocket, Option.map_some, Option.map_some, Option.getD_some, Option.getD_some,
        hnew r] at hcount
      rw [hwriters]
      -- a sink that comes from a silence writer is no longer there, any other was nowhere
      by_cases hring : sink = r
      · subst hring
        rw [List.count_singleton_self] at hcount ⊢
        omega
      · have hother : [sink].count r = 0 := List.count_eq_zero.mpr (by simpa using Ne.symm hring)
        rw [hother] at hcount ⊢
        omega
  | @disconnected index c i rbShared socket ch hsocket hch hi =>
      rcases List.findIdx?_eq_some_iff_getElem.mp hi with ⟨hlt, hget, _⟩
      have hsink : ch.sinks[i] = rbShared := by simpa using hget
      have hperm := perm_cons_swapRemove (List.getElem?_eq_getElem hlt)
      rw [hsink] at hperm
      have hold := hperm.count_eq r
      have hnew := ((h index socket hsocket).setChannel (Option.join_eq_some_iff.mp hch)
        { ch with sinks := swapRemove ch.sinks i }).2 r
      -- the sink goes to a silence writer if there is a clock
      generalize hwriters : (now.toList.map fun now => (⟨rbShared, now +
        BitVec.ofNat 64 (ringSize rbShared + ringSize rbShared / 2) +
          ch.timestampShift⟩ : SilenceWriter)) = writers
      have hmoved : (writers.map SilenceWriter.sink).count r ≤ [rbShared].count r := by
        rw [← hwriters]
        cases now <;> simp
      have hcount := rx.count_sinkIds_set (join_lt hsocket) (some { socket with
        channels := socket.channels.set c (some { ch with sinks := swapRemove ch.sinks i }) })
        (rx.silenceWriters ++ writers) r
      rw [hsocket, Option.map_some, Option.map_some, Option.getD_some, Option.getD_some] at hcount
      rw [List.count_cons] at hold
      rw [List.count_singleton] at hmoved
      rw [List.map_append, List.count_append]
      dsimp only at hnew hcount ⊢
      omega

/-- The start time changes no sinks. -/
theorem Stocked.pickStart (h : rx.Stocked) (startTime : Clock) :
    (rx.pickStart startTime).Stocked := by
  intro f socket hsocket
  rw [pickStart_join] at hsocket
  rcases Option.map_eq_some_iff.mp hsocket with ⟨socket, hold, rfl⟩
  exact (h f socket hold).shiftFrom startTime

theorem sinkIds_pickStart (rx : FlowsReceiver) (startTime : Clock) :
    (rx.pickStart startTime).sinkIds = rx.sinkIds :=
  Slots.held_map (RxSocket.sinkIds_shiftFrom startTime)

/-- A tick takes silence writers away only. -/
theorem Apart.closeSilence (h : rx.Apart) (ts : Clock) : (rx.closeSilence ts).Apart := by
  rw [apart_iff] at h ⊢
  intro r
  have hr := h r
  unfold FlowsReceiver.closeSilence
  split
  · exact hr
  · next k hk =>
      rcases List.findIdx?_eq_some_iff_getElem.mp hk with ⟨hlt, _, _⟩
      rw [List.length_reverse] at hlt
      have hlast : rx.silenceWriters.length - 1 - k < rx.silenceWriters.length := by omega
      have hperm := (perm_cons_swapRemove (List.getElem?_eq_getElem hlast)).map SilenceWriter.sink
      have hcount := hperm.count_eq r
      rw [List.map_cons, List.count_cons] at hcount
      have hsame : ∀ writers, sinkIds { rx with silenceWriters := writers } = rx.sinkIds :=
        fun _ => rfl
      rw [hsame]
      dsimp only
      omega

end FlowsReceiver

/-! ## Runs of the thread -/

/-- A socket that is added is as `add_socket` makes it. -/
def ReceiverEvent.Built : ReceiverEvent → Prop
  | .command c _ => c.Built
  | .readable .. | .closingTick _ => True

namespace ReceiverThread

variable {shape : RingId → RingShared} {sampleRate : BitVec 32} {t t' : ReceiverThread}

theorem step_stocked {e : ReceiverEvent} (h : t.rx.Stocked) (hbuilt : e.Built)
    (hstep : t.step shape sampleRate e = some t') : t'.rx.Stocked := by
  cases e with
  | command c now =>
      rcases Option.bind_eq_some_iff.mp hstep with ⟨rx, hrx, hstep⟩
      cases hstep
      exact h.handle hbuilt hrx
  | readable socketIndex startTime datagrams =>
      rw [(receive_rx hstep).1]
      unfold lookForStart
      split
      · exact h.pickStart _
      · exact h
  | closingTick now =>
      rcases @close_eq shape now t with ⟨ts, _, rings, hclose, _⟩ | ⟨_, hclose⟩
      · cases hclose.symm.trans hstep
        intro f socket hsocket
        rw [t.rx.closeSilence_sockets ts] at hsocket
        exact h f socket hsocket
      · cases hclose.symm.trans hstep
        exact h

/-- No ring is connected that is a sink. -/
def ConnectsFree (t : ReceiverThread) (e : ReceiverEvent) : Prop :=
  ∀ r, e.Connects r → r ∉ t.rx.sinkIds

theorem step_apart {e : ReceiverEvent} (hapart : t.rx.Apart) (h : t.rx.Stocked) (hbuilt : e.Built)
    (hfree : t.ConnectsFree e) (hstep : t.step shape sampleRate e = some t') : t'.rx.Apart := by
  cases e with
  | command c now =>
      rcases Option.bind_eq_some_iff.mp hstep with ⟨rx, hrx, hstep⟩
      cases hstep
      refine hapart.handle h hbuilt (fun f i sink hc => ?_) hrx
      subst hc
      exact hfree sink rfl
  | readable socketIndex startTime datagrams =>
      rw [(receive_rx hstep).1]
      unfold lookForStart
      split
      · rw [FlowsReceiver.Apart, FlowsReceiver.sinkIds_pickStart]
        exact hapart
      · exact hapart
  | closingTick now =>
      rcases @close_eq shape now t with ⟨ts, _, rings, hclose, _⟩ | ⟨_, hclose⟩
      · cases hclose.symm.trans hstep
        exact hapart.closeSilence ts
      · cases hclose.symm.trans hstep
        exact hapart

theorem stocked_start (maxChannels : Nat) (waiting : Bool) (rings : RingId → RingState Sample) :
    (start maxChannels waiting rings).rx.Stocked := by
  intro f socket hsocket
  rw [start, FlowsReceiver.start] at hsocket
  simp only [List.getElem?_replicate] at hsocket
  split at hsocket <;> cases hsocket

theorem apart_start (maxChannels : Nat) (waiting : Bool) (rings : RingId → RingState Sample) :
    (start maxChannels waiting rings).rx.Apart := by
  have hnone : (start maxChannels waiting rings).rx.sinkIds = [] :=
    Slots.held_replicate RxSocket.sinkIds MAX_FLOWS
  rw [FlowsReceiver.Apart, hnone]
  exact List.nodup_nil

/-- In every state that a run comes to, whatever commands, packets and ticks it
has taken: there is an empty vector for every free slot, a command panics only
for the place of its socket, so that no connect runs out of vectors, and no ring
is in two places if none was connected that was a sink. -/
theorem sinks_never_run_out {maxChannels : Nat} {waiting : Bool}
    {rings : RingId → RingState Sample} {es : List ReceiverEvent} (hbuilt : ∀ e ∈ es, e.Built)
    (hrun : (start maxChannels waiting rings).run shape sampleRate es = some t) :
    (∀ (f : Nat) socket, t.rx.sockets[f]?.join = some socket →
        socket.emptySinksVecs.length = socket.channels.countP Option.isNone ∧
          ∀ v ∈ socket.emptySinksVecs, v = []) ∧
      (∀ c now, (t.step shape sampleRate (.command c now)).isSome ↔ c.Placed t.rx) ∧
      (Partial.Each (step shape sampleRate) ConnectsFree (start maxChannels waiting rings) es →
        (t.rx.sinkIds ++ t.rx.silenceWriters.map SilenceWriter.sink).Nodup) := by
  have hstocked : t.rx.Stocked :=
    Partial.foldlM_inv (I := fun t : ReceiverThread => t.rx.Stocked)
      (fun _ e _ he hs hstep => step_stocked hs (hbuilt e he) hstep)
      (stocked_start maxChannels waiting rings) hrun
  refine ⟨fun f socket hsocket => ?_, fun c now => ?_, fun hfree => ?_⟩
  · exact ⟨(hstocked f socket hsocket).length, (hstocked f socket hsocket).prepared⟩
  · rw [← @FlowsReceiver.Stocked.handle_isSome_iff t.rx now (fun r => (shape r).itemsSize) hstocked,
      step]
    cases t.rx.handle now (fun r => (shape r).itemsSize) c <;> exact Iff.rfl
  · exact (hfree.foldlM_inv (I := fun t : ReceiverThread => t.rx.Stocked ∧ t.rx.Apart)
      (fun _ e _ he hs hok hstep => ⟨step_stocked hs.1 (hbuilt e he) hstep,
        step_apart hs.2 hs.1 (hbuilt e he) hok hstep⟩)
      ⟨stocked_start maxChannels waiting rings, apart_start maxChannels waiting rings⟩ hrun).2

/-- A ring is connected, disconnected, and connected to another slot. -/
def reconnected : List ReceiverEvent :=
  [.command (.addSocket 0 ⟨false, 2, 2, [none, none], [[], []]⟩) none,
    .command (.connectChannel 0 0 (.external 0)) (some 100),
    .command (.disconnectChannel 0 0 (.external 0)) (some 101),
    .command (.connectChannel 0 1 (.external 0)) (some 102)]

theorem sinks_never_run_out_reconnected :
    ∃ t, (start 1 false fun _ => newOwned 0 0).run (fun _ => ownedShared 4 (by decide)) 48000
        reconnected = some t ∧
      (∀ (f : Nat) socket, t.rx.sockets[f]?.join = some socket →
        socket.emptySinksVecs.length = socket.channels.countP Option.isNone ∧
          ∀ v ∈ socket.emptySinksVecs, v = []) ∧
      (∀ c now, (t.step (fun _ => ownedShared 4 (by decide)) 48000 (.command c now)).isSome ↔
        c.Placed t.rx) ∧
      (t.rx.sinkIds ++ t.rx.silenceWriters.map SilenceWriter.sink).Nodup := by
  have hbuilt : ∀ e ∈ reconnected, e.Built := by
    refine List.forall_mem_cons.mpr ⟨⟨2, rfl, rfl⟩, ?_⟩
    simp [ReceiverEvent.Built, RxCommand.Built]
  have hsome : ((start 1 false fun _ => newOwned 0 0).run (fun _ => ownedShared 4 (by decide)) 48000
      reconnected).isSome := rfl
  rcases Option.isSome_iff_exists.mp hsome with ⟨t, hrun⟩
  rcases sinks_never_run_out hbuilt hrun with ⟨hstocked, hplaced, hapart⟩
  refine ⟨t, hrun, hstocked, hplaced, hapart ?_⟩
  refine ⟨fun r h => (by cases h), fun t₁ h₁ => ?_⟩
  obtain rfl := Option.some.inj h₁
  refine ⟨fun r h => ?_, fun t₂ h₂ => ?_⟩
  · obtain rfl : RingId.external 0 = r := h
    decide
  obtain rfl := Option.some.inj h₂
  refine ⟨fun r h => (by cases h), fun t₃ h₃ => ?_⟩
  obtain rfl := Option.some.inj h₃
  refine ⟨fun r h => ?_, fun t₄ h₄ => trivial⟩
  obtain rfl : RingId.external 0 = r := h
  decide

end ReceiverThread

end Inferno
