import Inferno.ReceiverSockets

/-!
# Each receive flow has its socket

The worker has the sockets of new flows added while it resolves, and those of
flows that the scan gives up removed: of unicast flows before it goes on, of
multicast flows by a task that runs whenever it likes, while the index is free
for the next flow at once. In runs in which that does not happen, in which new
flows get indices that the receiver has places for, and in which no panic drops
the future of a multicast flow, the sockets are those of the flows
(`sockets_right`).
-/

namespace Inferno

open Partial

/-! ## What the flows need -/

/-- What matters of a flow for its socket. -/
def RxFlow.key (flow : RxFlow) : FlowSource × Nat × Nat :=
  (flow.source, flow.txChannels.length, flow.latencySamples)

def flowKeys (flows : List (Option RxFlow)) (f : Nat) : Option (FlowSource × Nat × Nat) :=
  (flows[f]?.join).map RxFlow.key

/-- The socket of a flow; a unicast flow has one when it is granted. -/
def RxFlow.socket (flow : RxFlow) : Option (Nat × Nat) :=
  if flow.granted then some (flow.txChannels.length, flow.latencySamples) else none

/-- The sockets of a table's flows. -/
def socketsOf (flows : List (Option RxFlow)) (f : Nat) : Option (Nat × Nat) :=
  flows[f]?.join.bind RxFlow.socket

theorem socket_of_key {flow flow' : RxFlow} (h : flow'.key = flow.key) :
    flow'.socket = flow.socket := by
  simp only [RxFlow.key, Prod.mk.injEq] at h
  obtain ⟨hsource, hlen, hlatency⟩ := h
  rw [RxFlow.socket, RxFlow.socket, RxFlow.granted, RxFlow.granted, hsource, hlen, hlatency]

theorem socketsOf_congr {flows flows' : List (Option RxFlow)} {f : Nat}
    (h : flowKeys flows' f = flowKeys flows f) : socketsOf flows' f = socketsOf flows f := by
  unfold flowKeys at h
  unfold socketsOf
  rcases hflow : flows[f]?.join with _ | flow
  · rw [hflow, Option.map_none, Option.map_eq_none_iff] at h
    rw [h]
  · rw [hflow, Option.map_some] at h
    obtain ⟨flow', hflow', hkey⟩ := Option.map_eq_some_iff.mp h
    rw [hflow', Option.bind_some, Option.bind_some, socket_of_key hkey]

theorem Job.MadeFor.of_key {job : Job} {flow flow' : RxFlow} (h : job.MadeFor flow)
    (hkey : flow'.key = flow.key) : job.MadeFor flow' := by
  simp only [RxFlow.key, Prod.mk.injEq] at hkey
  obtain ⟨hsource, hlen, hlatency⟩ := hkey
  cases job with
  | updateFlow => trivial
  | addMulticast =>
      rw [Job.MadeFor, hsource, hlen, hlatency]
      exact h
  | requestFlow =>
      rw [Job.MadeFor, hsource, hlen, hlatency]
      exact h

theorem flowKeys_set {flows : List (Option RxFlow)} {i : Nat} {flow : RxFlow}
    (hflow : flows[i]?.join = some flow) (flow' : RxFlow) (hkey : flow'.key = flow.key) :
    flowKeys (flows.set i (some flow')) = flowKeys flows := by
  funext f
  rw [flowKeys, flowKeys, join_set (join_lt hflow)]
  split
  · next heq => rw [heq, hflow, Option.map_some, Option.map_some, hkey]
  · rfl

/-- The worker's flows are the same, for their sockets, and no other sockets
are to be removed. -/
structure SameSockets (s s' : Subscriber) : Prop where
  keys : flowKeys s'.flows = flowKeys s.flows
  removals : s'.spawned.filterMap Task.removal? = s.spawned.filterMap Task.removal?

namespace SameSockets

variable {cfg : SubscriberConfig} {s s' : Subscriber}

theorem refl (s : Subscriber) : SameSockets s s := ⟨rfl, rfl⟩

theorem trans {s'' : Subscriber} (h : SameSockets s s') (h' : SameSockets s' s'') :
    SameSockets s s'' := ⟨h'.keys.trans h.keys, h'.removals.trans h.removals⟩

theorem of_spawned {extra : List Task} (hkeys : flowKeys s'.flows = flowKeys s.flows)
    (hspawned : s'.spawned = s.spawned ++ extra) (hextra : ∀ t ∈ extra, t.removal? = none) :
    SameSockets s s' := by
  refine ⟨hkeys, ?_⟩
  rw [hspawned, List.filterMap_append, List.filterMap_eq_nil_iff.mpr hextra, List.append_nil]

theorem release {r : ChannelOtherEnd} (h : s.release r = some s') : SameSockets s s' := by
  rcases Subscriber.release_cases h with ⟨_, rfl⟩ | ⟨flow, rc, hflow, _, rfl⟩
  · exact .refl _
  · exact ⟨flowKeys_set hflow _ rfl, rfl⟩

theorem leave {ch : Nat} {sub : ChannelSubscription} (h : s.leave cfg ch sub = some s') :
    SameSockets s s' := by
  unfold Subscriber.leave at h
  split at h
  · obtain rfl := Option.some.inj h
    exact .refl _
  · next r _ =>
      refine SameSockets.trans ?_ (.release h)
      exact of_spawned rfl rfl fun t ht => Task.IsDisconnect.removal ⟨_, _, _, ht⟩

theorem unsubscribe {ch : Nat} {removeFromInfo : Bool}
    (h : s.unsubscribe cfg ch removeFromInfo = some s') : SameSockets s s' := by
  rcases (Subscriber.unsubscribe_cases h).2 with ⟨_, rfl⟩ | ⟨sub, s₁, _, hleave, rfl⟩
  · exact .refl _
  · have hsame := SameSockets.leave hleave
    exact ⟨hsame.keys, hsame.removals⟩

theorem subscribe {ch : Nat} {txChannelName txHostname : String}
    (h : s.subscribe cfg ch txChannelName txHostname = some s') : SameSockets s s' := by
  obtain ⟨_, s₁, ⟨_, rfl⟩ | hun, rfl⟩ := Subscriber.subscribe_cases h
  · exact ⟨rfl, rfl⟩
  · have hsame := SameSockets.unsubscribe hun
    exact ⟨hsame.keys, hsame.removals⟩

theorem connectTasks_removal (s : Subscriber) (now : Clock) (r : ChannelOtherEnd) (flow : RxFlow)
    (chi : Nat) (rbOutput : Option RingId) :
    ∀ t ∈ s.connectTasks cfg now r flow chi rbOutput, t.removal? = none := by
  intro t ht
  unfold Subscriber.connectTasks at ht
  cases hbuffering : cfg.buffering with
  | owned =>
      rw [hbuffering] at ht
      rcases rbOutput with _ | ring <;> simp [Buffering.connectChannel] at ht
      · rcases ht with rfl | rfl <;> rfl
      · rw [ht]
        rfl
  | external =>
      rw [hbuffering] at ht
      simp [Buffering.connectChannel] at ht
      rw [ht]
      rfl

theorem connect {now : Clock} {r : ChannelOtherEnd} {chi : Nat}
    (h : s.connect cfg now r chi = some s') : SameSockets s s' := by
  obtain ⟨sub, flow, _, hflow, ⟨_, rfl⟩ | ⟨_, rc, rbOutput, _, _, rfl⟩⟩ := Subscriber.connect_cases h
  · exact .refl _
  · refine of_spawned (flowKeys_set hflow _ ?_) rfl (connectTasks_removal s now r flow chi rbOutput)
    rw [RxFlow.key, Subscriber.occupy, List.length_set]
    rfl

theorem applyUpdate {now : Clock} {upd : ChannelSourceUpdate}
    (h : s.applyUpdate cfg now upd = some s') : SameSockets s s' :=
  foldlM_inv (I := fun v => SameSockets s v) (fun _ _ _ _ hv hstep => hv.trans (.connect hstep))
    (.refl s) (Subscriber.applyUpdate_cases h)

theorem loadState {saved : List Subscriber.SavedChannelState} (h : s.loadState cfg saved = some s') :
    SameSockets s s' := by
  induction saved generalizing s with
  | nil =>
      obtain rfl := Option.some.inj h
      exact .refl _
  | cons chst saved ih =>
      rw [Subscriber.loadState] at h
      dsimp only at h
      split at h
      · exact ih h
      obtain ⟨s₁, hsub, h⟩ := Option.bind_eq_some_iff.mp h
      have hsame := SameSockets.subscribe hsub
      exact SameSockets.trans ⟨hsame.keys, hsame.removals⟩ (ih h)

end SameSockets

/-! ## Futures -/

def JobOutcome.isOk : JobOutcome → Bool
  | .ok _ => true
  | _ => false

/-- A future panics: the packet size is divided by zero, or the samples of the
new flow are not whole bytes. -/
def Job.panics (cfg : RxConfig) (outcome : JobOutcome) : Job → Bool
  | .requestFlow _ first txChannels .. =>
      let noFpp := (requestFpp cfg.fppOverride first txChannels.length).isNone
      match outcome with
      | .noSocket => false
      | .failed => noFpp
      | .ok _ => noFpp || first.bitsPerSample % 8 != 0
  | _ => false

def Job.isMulticast : Job → Bool
  | .addMulticast .. => true
  | _ => false

/-- A unicast flow is not granted before its future has run. -/
theorem Job.MadeFor.ungranted {job : Job} {flow : RxFlow} (h : job.MadeFor flow) {f : Nat}
    (hf : f ∈ job.newFlow) (hunicast : job.isMulticast = false) : flow.socket = none := by
  cases job with
  | updateFlow => cases hf
  | addMulticast => cases hunicast
  | requestFlow =>
      obtain ⟨⟨addr, dbcp1, hsource⟩, _⟩ := h
      rw [RxFlow.socket, RxFlow.granted, hsource]
      rfl

namespace RxWorld

variable {cfg : RxConfig} {w w' : RxWorld}

theorem flowKeys_set_ne (flows : List (Option RxFlow)) {f i : Nat} (o : Option RxFlow)
    (hne : i ≠ f) : flowKeys (flows.set f o) i = flowKeys flows i := by
  rw [flowKeys, flowKeys, List.getElem?_set_ne (Ne.symm hne)]

/-- What a future does about sockets: it adds the one of its new flow, which is
granted then, or none. -/
theorem runJob_sockets {job : Job} {rest rest' : List Job} {outcome : JobOutcome}
    {batch : Option (List ChannelSourceUpdate)}
    (hmade : ∀ f ∈ job.newFlow, ∃ flow, w.worker.flows[f]?.join = some flow ∧ job.MadeFor flow)
    (hrun : w.runJob cfg job rest outcome = some (w', rest', batch)) :
    rest' = (if job.panics cfg outcome then [] else rest) ∧
      (∀ i, i ∉ job.newFlow → flowKeys w'.worker.flows i = flowKeys w.worker.flows i) ∧
      ((w'.receiver = w.receiver ∧ ∀ f ∈ job.newFlow, socketsOf w'.worker.flows f = none) ∨
        (outcome.isOk = true ∧ job.panics cfg outcome = false) ∧
          ∃ f sendKeepalives bytesPerSample channelsCount latencySamples, job.newFlow = some f ∧
            w'.receiver = w.receiver.addSocket f sendKeepalives bytesPerSample channelsCount
              latencySamples ∧
            socketsOf w'.worker.flows f = some (channelsCount, latencySamples)) := by
  have hgone : ∀ {worker : Subscriber} {f : Nat}, worker.flows = w.worker.flows.set f none →
      job.newFlow = some f →
        (∀ i, i ∉ job.newFlow → flowKeys worker.flows i = flowKeys w.worker.flows i) ∧
          ∀ i ∈ job.newFlow, socketsOf worker.flows i = none := by
    intro worker f hflows hnew
    refine ⟨fun i hi => ?_, fun i hi => ?_⟩
    · rw [hflows, flowKeys_set_ne]
      rintro rfl
      exact hi hnew
    · rw [hnew] at hi
      obtain rfl := Option.some.inj hi
      rw [hflows, socketsOf, join_set_none, if_pos rfl, Option.bind_none]
  unfold RxWorld.runJob at hrun
  split at hrun
  · cases hrun
    exact ⟨rfl, fun _ _ => rfl, .inl ⟨rfl, fun _ hf => (by cases hf)⟩⟩
  · cases hrun
    exact ⟨rfl, fun _ _ => rfl, .inl ⟨rfl, fun _ hf => (by cases hf)⟩⟩
  · next f advbundle latency updates _ =>
      cases hrun
      obtain ⟨flow, hflow, ⟨name, hsource⟩, hlen, hlatency⟩ := hmade f rfl
      refine ⟨rfl, fun _ _ => rfl, .inr ⟨⟨rfl, rfl⟩, _, _, _, _, _, rfl, rfl, ?_⟩⟩
      rw [socketsOf, hflow, Option.bind_some, RxFlow.socket, RxFlow.granted, hsource, hlen, hlatency]
      rfl
  · cases hrun
    exact ⟨rfl, (hgone rfl rfl).1, .inl ⟨rfl, (hgone rfl rfl).2⟩⟩
  · next f first txChannels flowName latency updates =>
      have hungranted : socketsOf w.worker.flows f = none := by
        obtain ⟨flow, hflow, hflow'⟩ := hmade f rfl
        rw [socketsOf, hflow, Option.bind_some, hflow'.ungranted rfl rfl]
      split at hrun
      · next hfpp =>
          cases hrun
          refine ⟨by simp [Job.panics, hfpp], fun _ _ => rfl, .inl ⟨rfl, fun i hi => ?_⟩⟩
          obtain rfl := Option.some.inj hi
          exact hungranted
      · next hfpp =>
          obtain ⟨worker, hfail, hrun⟩ := Option.bind_eq_some_iff.mp hrun
          cases hrun
          obtain ⟨_, hflows, _⟩ := txFail_all hfail
          obtain ⟨hkeys, hnone⟩ := @hgone { worker with flows := worker.flows.set f none } f
            (by rw [← hflows]) rfl
          exact ⟨by simp [Job.panics, hfpp], hkeys, .inl ⟨rfl, hnone⟩⟩
  · next f first txChannels flowName latency updates handle =>
      obtain ⟨flow, hflow, hflow'⟩ := hmade f rfl
      have hungranted : socketsOf w.worker.flows f = none := by
        rw [socketsOf, hflow, Option.bind_some, hflow'.ungranted rfl rfl]
      obtain ⟨⟨addr, dbcp1, hsource⟩, hlen, hlatency⟩ := hflow'
      have hsame : ∀ i ∈ (Job.requestFlow f first txChannels flowName latency updates).newFlow,
          socketsOf w.worker.flows i = none := by
        intro i hi
        obtain rfl := Option.some.inj hi
        exact hungranted
      split at hrun
      · next hfpp =>
          cases hrun
          exact ⟨by simp [Job.panics, hfpp], fun _ _ => rfl, .inl ⟨rfl, hsame⟩⟩
      next hfpp =>
      split at hrun
      · next hbits =>
          cases hrun
          exact ⟨by simp [Job.panics, hbits], fun _ _ => rfl, .inl ⟨rfl, hsame⟩⟩
      · next hbits =>
          rw [hflow] at hrun
          cases hrun
          have hok : (Job.requestFlow f first txChannels flowName latency updates).panics cfg
              (.ok handle) = false := by
            simp [Job.panics, hfpp, Decidable.not_not.mp hbits]
          refine ⟨by simp [hok], fun i hi => ?_, .inr ⟨⟨rfl, hok⟩, f, true, _, _, _, rfl, rfl, ?_⟩⟩
          · dsimp only
            rw [flowKeys_set_ne]
            rintro rfl
            exact hi rfl
          · dsimp only
            rw [socketsOf, join_set (join_lt hflow), if_pos rfl, Option.bind_some, hsource]
            simp [RxFlow.socket, RxFlow.granted, hlen, hlatency]
  · cases hrun

/-! ## The invariant -/

/-- The indices whose sockets are to be removed. -/
def removals (w : RxWorld) : List Nat :=
  w.worker.spawned.filterMap Task.removal? ++
    match w.phase with
    | .destroying flows => flows.map Subscriber.DestroyFlow.flowIndex
    | _ => []

/-- The future for the flow at an index has still to run. -/
def isAwaited (w : RxWorld) (f : Nat) : Bool := w.jobs.any fun job => job.newFlow = some f

theorem isAwaited_iff {f : Nat} : w.isAwaited f = true ↔ ∃ job ∈ w.jobs, f ∈ job.newFlow := by
  simp [isAwaited, Option.mem_def]

/-- The sockets that there should be by now. -/
def due (w : RxWorld) (f : Nat) : Option (Nat × Nat) :=
  if w.isAwaited f then none else socketsOf w.worker.flows f

theorem due_of_awaited {f : Nat} (h : ∃ job ∈ w.jobs, f ∈ job.newFlow) : w.due f = none := by
  rw [due, if_pos (isAwaited_iff.mpr h)]

theorem due_of_not_awaited {f : Nat} (h : ¬ ∃ job ∈ w.jobs, f ∈ job.newFlow) :
    w.due f = socketsOf w.worker.flows f := by
  rw [due, if_neg (mt isAwaited_iff.mp h)]

theorem due_of_no_jobs (h : w.jobs = []) : w.due = socketsOf w.worker.flows := by
  funext f
  refine due_of_not_awaited ?_
  rw [h]
  rintro ⟨_, hjob, _⟩
  cases hjob

/-- The condition on an event. A new flow that is granted has an index below
`MAX_FLOWS`, and no removal of an older socket at it is on its way; and a future
that panics takes no multicast flow with it. -/
def SocketFits (cfg : RxConfig) (w : RxWorld) : RxEvent → Prop
  | .job k outcome => match w.phase with
      | .resolving r => ∀ jobs ∈ r.executors[k]?, ∀ job ∈ jobs.head?,
          (job.panics cfg outcome = true → ∀ job' ∈ jobs.tail, job'.isMulticast = false) ∧
          (outcome.isOk = true ∧ job.panics cfg outcome = false → ∀ f ∈ job.newFlow,
            f < MAX_FLOWS ∧ Task.removeSocket f ∉ w.worker.spawned)
      | _ => True
  | _ => True

instance (cfg : RxConfig) (w : RxWorld) : (e : RxEvent) → Decidable (w.SocketFits cfg e)
  | .job _ _ => decidableResolving (fun _ => inferInstance) w.phase
  | .subscribe .. | .unsubscribe _ | .saveState | .shutdown | .deliver _ | .handle | .resolve _
  | .receive .. | .apply | .finish | .scan _ | .destroy _ | .task _ | .receiver _ => isTrue trivial

/-- The invariant. -/
structure SocketInv (w : RxWorld) : Prop where
  refs : w.RefInv
  synced : w.receiver.Synced
  made : ∀ job ∈ w.jobs, ∀ f ∈ job.newFlow,
    ∃ flow, w.worker.flows[f]?.join = some flow ∧ job.MadeFor flow
  nodup : w.removals.Nodup
  leaving : ∀ f ∈ w.removals, (w.receiver.infoShapes f).isSome ∧ w.due f = none
  staying : ∀ f, f ∉ w.removals → w.receiver.infoShapes f = w.due f

/-- Sockets are right: the next command of the receiver's thread fits, and when
nothing is under way a flow that is granted has its socket, and no flow has
none. -/
structure SocketsRight (w : RxWorld) : Prop where
  takes : ∀ c ∈ w.receiver.commands.head?, c.Takes w.receiver.socketShapes
  sockets : w.isQuiet = true → w.receiver.commands = [] →
    ∀ (f : Nat) flow, w.worker.flows[f]?.join = some flow → flow.granted = true →
      f < MAX_FLOWS ∧ ∃ socket, w.receiver.sockets[f]?.join = some socket ∧
        socket.channels.length = flow.txChannels.length ∧
        socket.latencySamples = flow.latencySamples
  empty : w.isQuiet = true → w.receiver.commands = [] →
    ∀ f : Nat, w.worker.flows[f]?.join = none → w.receiver.sockets[f]?.join = none

theorem SocketInv.quiet (h : w.SocketInv) (hquiet : w.isQuiet = true)
    (hcommands : w.receiver.commands = []) :
    w.receiver.socketShapes = socketsOf w.worker.flows := by
  obtain ⟨hphase, hspawned⟩ := isQuiet_iff.mp hquiet
  have hjobs : w.jobs = [] := by rw [jobs, hphase]
  have hremovals : w.removals = [] := by rw [removals, hspawned, hphase]; rfl
  have hdrained := h.synced.drained
  rw [hcommands, Outbox.drained_nil] at hdrained
  funext f
  rw [hdrained, h.staying f (by rw [hremovals]; exact List.not_mem_nil), due_of_no_jobs hjobs]

theorem SocketInv.right (h : w.SocketInv) : w.SocketsRight := by
  refine ⟨fun c hc => ?_, fun hquiet hcommands f flow hflow hgranted => ?_,
    fun hquiet hcommands f hnone => ?_⟩
  · have haccepted := h.synced.accepted
    cases hcommands : w.receiver.commands with
    | nil =>
        rw [hcommands] at hc
        cases hc
    | cons c' cs =>
        rw [hcommands] at hc haccepted
        obtain rfl := Option.some.inj hc
        exact haccepted.1
  · have hshape := congrFun (h.quiet hquiet hcommands) f
    rw [socketsOf, hflow, Option.bind_some, RxFlow.socket, if_pos hgranted] at hshape
    obtain ⟨socket, hsocket, hsame⟩ := Option.map_eq_some_iff.mp hshape
    obtain ⟨hlen, hlatency⟩ := Prod.mk.inj hsame
    exact ⟨h.synced.sockets ▸ join_lt hsocket, socket, hsocket, hlen, hlatency⟩
  · have hshape := congrFun (h.quiet hquiet hcommands) f
    rw [socketsOf, hnone, Option.bind_none] at hshape
    exact Option.map_eq_none_iff.mp hshape

/-! ## The steps -/

/-- Events that change neither the sockets nor those that should be. -/
theorem SocketInv.of_same (h : w.SocketInv) (hrefs : w'.RefInv)
    (hsynced : w'.receiver.Synced) (hinfo : w'.receiver.infoShapes = w.receiver.infoShapes)
    (hmade : ∀ job ∈ w'.jobs, ∀ f ∈ job.newFlow,
      ∃ flow, w'.worker.flows[f]?.join = some flow ∧ job.MadeFor flow)
    (hremovals : w'.removals = w.removals) (hdue : w'.due = w.due) : w'.SocketInv where
  refs := hrefs
  synced := hsynced
  made := hmade
  nodup := hremovals ▸ h.nodup
  leaving := by
    rw [hremovals, hinfo, hdue]
    exact h.leaving
  staying := by
    rw [hremovals, hinfo, hdue]
    exact h.staying

theorem made_of_keys {flows flows' : List (Option RxFlow)} {job : Job} {f : Nat}
    (hkeys : flowKeys flows' f = flowKeys flows f)
    (h : ∃ flow, flows[f]?.join = some flow ∧ job.MadeFor flow) :
    ∃ flow, flows'[f]?.join = some flow ∧ job.MadeFor flow := by
  obtain ⟨flow, hflow, hmade⟩ := h
  rw [flowKeys, flowKeys, hflow, Option.map_some] at hkeys
  obtain ⟨flow', hflow', hkey⟩ := Option.map_eq_some_iff.mp hkeys
  exact ⟨flow', hflow', hmade.of_key hkey⟩

/-- The worker does something else. -/
theorem SocketInv.of_worker (h : w.SocketInv) (hrefs : w'.RefInv)
    (hworker : SameSockets w.worker w'.worker) (hreceiver : w'.receiver = w.receiver)
    (hjobs : w'.jobs = w.jobs)
    (hphase : ∀ ds, w'.phase = .destroying ds ↔ w.phase = .destroying ds) : w'.SocketInv := by
  refine h.of_same hrefs (hreceiver ▸ h.synced) (by rw [hreceiver]) (fun job hjob f hf => ?_) ?_ ?_
  · exact made_of_keys (congrFun hworker.keys f) (h.made job (hjobs ▸ hjob) f hf)
  · rw [removals, removals, hworker.removals]
    congr 1
    rcases hw : w.phase with _ | r | ds
    · rcases hw' : w'.phase with _ | r' | ds'
      · rfl
      · rfl
      · cases hw.symm.trans ((hphase ds').mp hw')
    · rcases hw' : w'.phase with _ | r' | ds'
      · rfl
      · rfl
      · cases hw.symm.trans ((hphase ds').mp hw')
    · rw [(hphase ds).mpr hw]
  · funext f
    rw [due, due, isAwaited, isAwaited, hjobs, socketsOf_congr (congrFun hworker.keys f)]

theorem SocketInv.handle (h : w.SocketInv) (hrefs : w'.RefInv) (hrun : w.handle cfg = some w') :
    w'.SocketInv := by
  obtain ⟨c, queue, next, hqueue, hnext, rfl⟩ := handle_cases hrun
  cases c with
  | shutdown =>
      obtain rfl := Option.some.inj hnext
      exact h.of_worker hrefs (.refl _) rfl rfl fun _ => Iff.rfl
  | forceRefresh =>
      obtain rfl := Option.some.inj hnext
      exact h.of_worker hrefs (.refl _) rfl rfl fun _ => Iff.rfl
  | subscribe ch txChannelName txHostname =>
      obtain ⟨worker, hsub, rfl⟩ := Option.map_eq_some_iff.mp hnext
      exact h.of_worker hrefs (.subscribe hsub) rfl rfl fun _ => Iff.rfl
  | unsubscribe ch =>
      obtain ⟨worker, hun, rfl⟩ := Option.map_eq_some_iff.mp hnext
      exact h.of_worker hrefs (.unsubscribe hun) rfl rfl fun _ => Iff.rfl

theorem SocketInv.apply (h : w.SocketInv) (hrefs : w'.RefInv) (hrun : w.apply cfg = some w') :
    w'.SocketInv := by
  obtain ⟨r, upd, rest, worker, hphase, happlying, happly, rfl⟩ := apply_cases hrun
  refine h.of_worker hrefs (.applyUpdate happly) rfl (by rw [jobs, jobs, hphase]) fun ds => ?_
  rw [hphase]
  simp

/-- New flows are awaited, so they need no sockets yet. -/
theorem SocketInv.resolve (h : w.SocketInv) (hrefs : w'.RefInv) (hidle : w.phase = .idle)
    {env : ResolveEnv} (hrun : w.resolve cfg env = some w') : w'.SocketInv := by
  unfold RxWorld.resolve at hrun
  obtain ⟨p, hplan, hrun⟩ := Option.bind_eq_some_iff.mp hrun
  obtain rfl := Option.some.inj hrun
  obtain ⟨hplaced, _⟩ := planResolve_placed hplan (fun chi r hr => h.refs.exact.inUse hr)
    h.refs.bundles
  have hnojobs : w.jobs = [] := by rw [jobs, hidle]
  have hjobs : (p.futures.entries.map Prod.snd).flatten = p.jobs := (List.flatMap_def ..).symm
  refine h.of_same hrefs h.synced rfl (fun job hjob => ?_) (by rw [removals, removals, hidle]) ?_
  · rw [jobs] at hjob
    exact hplaced.made job (hjobs ▸ hjob)
  · rw [due_of_no_jobs hnojobs]
    funext f
    by_cases hawaited : ∃ job ∈ p.jobs, f ∈ job.newFlow
    · obtain ⟨job, hjob, hf⟩ := hawaited
      rw [socketsOf, (hplaced.newFlow job hjob f hf).1, Option.bind_none]
      refine due_of_awaited ⟨job, ?_, hf⟩
      show job ∈ (p.futures.entries.map Prod.snd).flatten
      rw [hjobs]
      exact hjob
    · rw [due_of_not_awaited (by rw [jobs]; dsimp only; rw [hjobs]; exact hawaited)]
      show socketsOf p.flows f = _
      rw [socketsOf, socketsOf]
      cases hflow : p.flows[f]?.join with
      | none =>
          cases hold : w.worker.flows[f]?.join with
          | none => rfl
          | some flow => cases hflow.symm.trans (hplaced.old f flow hold)
      | some flow =>
          rcases hplaced.covered f flow hflow with hold | hjob
          · rw [hold]
          · exact absurd hjob hawaited

/-- A future is the first of its executor, among the others, or has been dropped
with it. -/
theorem executors_mem {executors : List (List Job)} {k : Nat} {job : Job} {rest rest' : List Job}
    (hk : executors[k]? = some (job :: rest)) {j : Job} (hj : j ∈ executors.flatten) :
    j = job ∨ j ∈ rest ∨ j ∈ (executors.set k rest').flatten := by
  obtain ⟨l, hl, hj⟩ := List.mem_flatten.mp hj
  obtain ⟨m, hm⟩ := List.mem_iff_getElem?.mp hl
  by_cases heq : k = m
  · subst heq
    rw [hk] at hm
    obtain rfl := Option.some.inj hm
    rcases List.mem_cons.mp hj with rfl | hj
    · exact .inl rfl
    · exact .inr (.inl hj)
  · refine .inr (.inr (List.mem_flatten.mpr ⟨l, List.mem_of_getElem? (i := m) ?_, hj⟩))
    rw [List.getElem?_set_ne heq, hm]

theorem SocketInv.job (h : w.SocketInv) (hrefs : w'.RefInv) {k : Nat} {outcome : JobOutcome}
    (hfits : w.SocketFits cfg (.job k outcome)) (hrun : w.job cfg k outcome = some w') :
    w'.SocketInv := by
  obtain ⟨r, job, rest, w₁, rest', batch, hphase, hk, hjob, hw'⟩ := job_cases hrun
  have hjobs : w.jobs = r.executors.flatten := by rw [jobs, hphase]
  have hjobs' : w'.jobs = (r.executors.set k rest').flatten := by rw [hw', jobs]
  have hworker : w'.worker = w₁.worker := by rw [hw']
  have hsent : w'.receiver = w₁.receiver := by rw [hw']
  obtain ⟨hspawned, _⟩ := runJob_receiver hjob
  have hremovals : w'.removals = w.removals := by rw [removals, removals, hw', hphase, hspawned]
  clear hw' hrun
  have hmem : job ∈ w.jobs := by
    rw [hjobs]
    exact List.mem_flatten.mpr ⟨_, List.mem_of_getElem? hk, List.mem_cons_self⟩
  simp only [SocketFits, hphase, hk, Option.mem_some_iff, forall_eq', List.head?_cons,
    List.tail_cons] at hfits
  obtain ⟨hdrop, hadds⟩ := hfits
  obtain ⟨hrest, hkeys, hreceiver⟩ := runJob_sockets (h.made job hmem) hjob
  rw [← hworker] at hkeys hreceiver
  obtain ⟨others, hperm, hsub⟩ := executors_perm hk
    (show rest' = rest ∨ rest' = [] by rw [hrest]; split <;> simp)
  have hold : ∀ j ∈ w'.jobs, j ∈ w.jobs := by
    intro j hj
    rw [hjobs]
    exact hperm.symm.subset (List.mem_cons_of_mem _ (hsub.subset (hjobs' ▸ hj)))
  -- no other future is for the new flow of this one
  have hapart : ∀ j ∈ w'.jobs, job.Apart j := by
    intro j hj
    have hpromises := h.refs.promises.apart
    rw [hjobs] at hpromises
    have hpair := (hperm.pairwise_iff fun ha => ha.symm).mp hpromises
    exact (List.pairwise_cons.mp hpair).1 j (hsub.subset (hjobs' ▸ hj))
  have hmade : ∀ j ∈ w'.jobs, ∀ f ∈ j.newFlow,
      ∃ flow, w'.worker.flows[f]?.join = some flow ∧ j.MadeFor flow := by
    intro j hj f hf
    have hnot : f ∉ job.newFlow := ((hapart j hj).symm.1 f hf).1
    exact made_of_keys (hkeys f hnot) (h.made j (hold j hj) f hf)
  have hother : ∀ f, f ∉ job.newFlow → w'.due f = w.due f := by
    intro f hf
    by_cases hawaited : ∃ j ∈ w'.jobs, f ∈ j.newFlow
    · rw [due_of_awaited hawaited]
      obtain ⟨j, hj, hfj⟩ := hawaited
      exact (due_of_awaited ⟨j, hold j hj, hfj⟩).symm
    rw [due_of_not_awaited hawaited, socketsOf_congr (hkeys f hf)]
    by_cases hpending : ∃ j ∈ w.jobs, f ∈ j.newFlow
    swap
    · exact (due_of_not_awaited hpending).symm
    -- its future has been dropped by the panic
    rw [due_of_awaited hpending]
    obtain ⟨j, hj, hfj⟩ := hpending
    obtain ⟨flow, hflow, hflow'⟩ := h.made j hj f hfj
    rcases executors_mem hk (hjobs ▸ hj) with rfl | hj | hj
    · exact absurd hfj hf
    · cases hpanics : job.panics cfg outcome with
      | false =>
          refine absurd ⟨j, ?_, hfj⟩ hawaited
          rw [hjobs', hrest, hpanics]
          exact List.mem_flatten.mpr ⟨rest, List.mem_set (List.getElem?_eq_some_iff.mp hk).1 rest, hj⟩
      | true =>
          rw [socketsOf, hflow, Option.bind_some, hflow'.ungranted hfj (hdrop hpanics j hj)]
    · exact absurd ⟨j, hjobs' ▸ hj, hfj⟩ hawaited
  have hnew : ∀ f ∈ job.newFlow, w.due f = none ∧ w'.due f = socketsOf w'.worker.flows f := by
    intro f hf
    refine ⟨due_of_awaited ⟨job, hmem, hf⟩, due_of_not_awaited ?_⟩
    rintro ⟨j, hj, hfj⟩
    exact ((hapart j hj).1 f hf).1 hfj
  rcases hreceiver with ⟨hsame, hnone⟩ |
    ⟨hok, f, sendKeepalives, bytesPerSample, channelsCount, latencySamples, hf, hadd, hsocket⟩
  · have hsame' : w'.receiver = w.receiver := hsent.trans hsame
    refine h.of_same hrefs (hsame' ▸ h.synced) (by rw [hsame']) hmade hremovals ?_
    funext f
    by_cases hf : f ∈ job.newFlow
    · rw [(hnew f hf).1, (hnew f hf).2, hnone f hf]
    · exact hother f hf
  · obtain ⟨hlt, hnotask⟩ := hadds hok f hf
    have hnotin : f ∉ w.removals := by
      rw [removals, hphase, List.append_nil]
      intro hmem
      obtain ⟨t, ht, hremoval⟩ := List.mem_filterMap.mp hmem
      cases t <;> cases hremoval
      exact hnotask ht
    have hempty : w.receiver.infoShapes f = none := by rw [h.staying f hnotin, (hnew f hf).1]
    obtain ⟨hsynced, hinfo⟩ := h.synced.addSocket hlt hempty sendKeepalives bytesPerSample
      channelsCount latencySamples
    rw [← hadd, ← hsent] at hsynced hinfo
    refine ⟨hrefs, hsynced, hmade, hremovals ▸ h.nodup, fun i hi => ?_, fun i hi => ?_⟩
    · rw [hremovals] at hi
      have hne : i ≠ f := by
        rintro rfl
        exact hnotin hi
      have hi' : i ∉ job.newFlow := by
        rw [hf]
        rintro hcon
        exact hne (Option.some.inj hcon).symm
      rw [hinfo, Function.update_of_ne hne, hother i hi']
      exact h.leaving i hi
    · rw [hremovals] at hi
      rw [hinfo]
      by_cases hne : i = f
      · rw [hne, Function.update_self, (hnew f hf).2, hsocket]
      · have hi' : i ∉ job.newFlow := by
          rw [hf]
          rintro hcon
          exact hne (Option.some.inj hcon).symm
        rw [Function.update_of_ne hne, hother i hi', h.staying i hi]

/-- Each flow that the scan gives up has its socket, which is to be removed
from now on. -/
theorem SocketInv.scan (h : w.SocketInv) (hrefs : w'.RefInv) (hidle : w.phase = .idle)
    {env : Subscriber.ScanEnv} (hrun : w.scan cfg env = some w') : w'.SocketInv := by
  obtain ⟨⟨worker, destroy⟩, hscan, hrun⟩ := Option.bind_eq_some_iff.mp hrun
  obtain rfl := Option.some.inj hrun
  obtain ⟨hgranted, removed, ⟨extra, hspawned, _, hremoved⟩, hperm⟩ :=
    Subscriber.scanFlows_spawns hscan
  have hflows := RefcountsExact.scanFlows_flows hscan
  have hjobs : w.jobs = [] := by rw [jobs, hidle]
  have hold : w.removals = w.worker.spawned.filterMap Task.removal? := by
    rw [removals, hidle, List.append_nil]
  have hnew : (removals { w with
        worker := worker
        phase := if destroy.isEmpty then .idle else .destroying destroy }).Perm
      (w.removals ++ Subscriber.removedFrom env 0 w.worker.flows) := by
    have hdestroy : (match (if destroy.isEmpty then .idle else .destroying destroy : WorkerPhase) with
        | .destroying flows => flows.map Subscriber.DestroyFlow.flowIndex
        | _ => []) = destroy.map Subscriber.DestroyFlow.flowIndex := by
      cases destroy <;> rfl
    rw [removals, hdestroy, hspawned, List.filterMap_append, hremoved, hold, List.append_assoc]
    exact (List.perm_append_comm.trans hperm).append_left _
  have hgone : ∀ f ∈ Subscriber.removedFrom env 0 w.worker.flows,
      (w.due f).isSome ∧ worker.flows[f]?.join = none := by
    intro f hf
    obtain ⟨_, flow, hflow, hout⟩ := (Subscriber.mem_removedFrom List.drop_zero).mp hf
    rw [due_of_no_jobs hjobs, socketsOf, hflow, Option.bind_some, RxFlow.socket,
      if_pos (hgranted f flow hflow hout), hflows, hflow]
    exact ⟨rfl, by rw [Option.filter_some, hout]; rfl⟩
  have hstays : ∀ f, f ∉ Subscriber.removedFrom env 0 w.worker.flows →
      worker.flows[f]?.join = w.worker.flows[f]?.join := by
    intro f hf
    rw [hflows]
    cases hflow : w.worker.flows[f]?.join with
    | none => rfl
    | some flow =>
        cases hout : Subscriber.isRemoved env f flow with
        | false => rw [Option.filter_some, hout]; rfl
        | true =>
            exact absurd ((Subscriber.mem_removedFrom List.drop_zero).mpr
              ⟨Nat.zero_le f, flow, hflow, hout⟩) hf
  have hjobs' : jobs { w with
      worker := worker
      phase := if destroy.isEmpty then .idle else .destroying destroy } = [] := by
    cases destroy <;> rfl
  have hdisjoint : ∀ f ∈ w.removals, f ∉ Subscriber.removedFrom env 0 w.worker.flows := by
    intro f hf hmem
    have hsome := (hgone f hmem).1
    rw [(h.leaving f hf).2] at hsome
    cases hsome
  refine ⟨hrefs, h.synced, fun job hjob => ?_, ?_, fun f hf => ?_, fun f hf => ?_⟩
  · rw [hjobs'] at hjob
    cases hjob
  · refine hnew.nodup_iff.mpr (List.nodup_append.mpr ⟨h.nodup, Subscriber.removedFrom_nodup env _, ?_⟩)
    rintro f hf f' hf' rfl
    exact hdisjoint f hf hf'
  · rw [due_of_no_jobs hjobs', socketsOf]
    rcases List.mem_append.mp (hnew.subset hf) with hf | hf
    · obtain ⟨hinfo, hdue⟩ := h.leaving f hf
      rw [due_of_no_jobs hjobs, socketsOf] at hdue
      exact ⟨hinfo, (congrArg (·.bind RxFlow.socket) (hstays f (hdisjoint f hf))).trans hdue⟩
    · obtain ⟨hsome, hnone⟩ := hgone f hf
      have hnot : f ∉ w.removals := fun hmem => hdisjoint f hmem hf
      refine ⟨?_, congrArg (·.bind RxFlow.socket) hnone⟩
      show (w.receiver.infoShapes f).isSome
      rw [h.staying f hnot]
      exact hsome
  · have hnot : f ∉ w.removals ++ Subscriber.removedFrom env 0 w.worker.flows :=
      fun hmem => hf (hnew.symm.subset hmem)
    rw [List.mem_append, not_or] at hnot
    rw [due_of_no_jobs hjobs', socketsOf]
    show w.receiver.infoShapes f = (worker.flows[f]?.join).bind RxFlow.socket
    rw [hstays f hnot.2, h.staying f hnot.1, due_of_no_jobs hjobs, socketsOf]

/-- One of the sockets that are to be removed goes. -/
theorem SocketInv.removeSocket (h : w.SocketInv) (hrefs : w'.RefInv) {f : Nat}
    (hremovals : w.removals.Perm (f :: w'.removals))
    (hreceiver : w'.receiver = w.receiver.removeSocket f) (hjobs : w'.jobs = w.jobs)
    (hflows : w'.worker.flows = w.worker.flows) : w'.SocketInv := by
  have hdue : w'.due = w.due := by
    funext i
    rw [due, due, isAwaited, isAwaited, hjobs, hflows]
  obtain ⟨hsome, hnone⟩ := h.leaving f (hremovals.symm.subset List.mem_cons_self)
  obtain ⟨hsynced, hinfo⟩ := h.synced.removeSocket hsome
  rw [← hreceiver] at hsynced hinfo
  obtain ⟨hnot, hnodup⟩ := List.nodup_cons.mp (hremovals.nodup_iff.mp h.nodup)
  refine ⟨hrefs, hsynced, fun job hjob => ?_, hnodup, fun i hi => ?_, fun i hi => ?_⟩
  · rw [hflows]
    exact h.made job (hjobs ▸ hjob)
  · have hne : i ≠ f := by
      rintro rfl
      exact hnot hi
    rw [hinfo, Function.update_of_ne hne, hdue]
    exact h.leaving i (hremovals.symm.subset (List.mem_cons_of_mem _ hi))
  · rw [hinfo, hdue]
    by_cases hne : i = f
    · rw [hne, Function.update_self, hnone]
    · rw [Function.update_of_ne hne]
      refine h.staying i fun hmem => ?_
      rcases List.mem_cons.mp (hremovals.subset hmem) with heq | hmem
      · exact hne heq
      · exact hi hmem

theorem SocketInv.destroy (h : w.SocketInv) (hrefs : w'.RefInv) {i : Nat}
    (hrun : w.destroy i = some w') : w'.SocketInv := by
  obtain ⟨ds, d, hphase, hd, rfl⟩ := destroy_cases hrun
  obtain ⟨hlt, hget⟩ := List.getElem?_eq_some_iff.mp hd
  have hperm := (List.getElem_cons_eraseIdx_perm hlt).map Subscriber.DestroyFlow.flowIndex
  rw [hget, List.map_cons] at hperm
  refine h.removeSocket hrefs ?_ rfl ?_ rfl
  · rw [removals, removals, hphase]
    dsimp only
    have hrest : (match (if (ds.eraseIdx i).isEmpty then .idle else .destroying (ds.eraseIdx i) :
        WorkerPhase) with
        | .destroying flows => flows.map Subscriber.DestroyFlow.flowIndex
        | _ => []) = (ds.eraseIdx i).map Subscriber.DestroyFlow.flowIndex := by
      cases ds.eraseIdx i <;> rfl
    rw [hrest]
    exact (hperm.symm.append_left _).trans List.perm_middle
  · rw [jobs, jobs, hphase]
    dsimp only
    cases ds.eraseIdx i <;> rfl

theorem SocketInv.task (h : w.SocketInv) (hrefs : w'.RefInv) {i : Nat} (hrun : w.task i = some w') :
    w'.SocketInv := by
  obtain ⟨t, ht, rfl⟩ := task_cases hrun
  obtain ⟨hlt, hget⟩ := List.getElem?_eq_some_iff.mp ht
  have hperm := (List.getElem_cons_eraseIdx_perm hlt).filterMap Task.removal?
  rw [hget] at hperm
  by_cases hremoval : t.removal? = none
  · -- the sockets stay what they are
    rw [List.filterMap_cons_none hremoval] at hperm
    have hreceiver : (runTask w.receiver t).Synced ∧
        (runTask w.receiver t).infoShapes = w.receiver.infoShapes := by
      cases t with
      | receiverConnect f c chi sink => exact h.synced.connectChannel f c chi sink
      | receiverDisconnect f c chi rbShared => exact h.synced.disconnectChannel f c chi rbShared
      | removeSocket f => cases hremoval
      | collectorConnect chi source latencySamples => exact ⟨h.synced, rfl⟩
      | collectorDisconnect chi => exact ⟨h.synced, rfl⟩
    refine ⟨hrefs, hreceiver.1, h.made, ?_, fun f hf => ?_, fun f hf => ?_⟩
    · exact ((hperm.append_right _).nodup_iff).mpr h.nodup
    · rw [hreceiver.2]
      exact h.leaving f ((hperm.append_right _).subset hf)
    · rw [hreceiver.2]
      exact h.staying f fun hmem => hf ((hperm.append_right _).symm.subset hmem)
  · cases t with
    | removeSocket f =>
        rw [List.filterMap_cons_some (show (Task.removeSocket f).removal? = some f from rfl)] at hperm
        exact h.removeSocket hrefs (hperm.symm.append_right _) rfl rfl rfl
    | receiverConnect => exact absurd rfl hremoval
    | receiverDisconnect => exact absurd rfl hremoval
    | collectorConnect => exact absurd rfl hremoval
    | collectorDisconnect => exact absurd rfl hremoval

/-! ## Every run -/

theorem SocketInv.step (h : w.SocketInv) {e : RxEvent} (hfits : w.SocketFits cfg e)
    (hrun : w.step cfg e = some w') : w'.SocketInv := by
  have hrefs := (h.refs.step hrun).1
  cases step_case hrun with
  | quiet hquiet =>
      exact h.of_worker hrefs ⟨by rw [hquiet.flows], by rw [hquiet.spawned]⟩ hquiet.receiver
        hquiet.jobs hquiet.destroying
  | handle _ hrun => exact h.handle hrefs hrun
  | resolve hidle hrun => exact h.resolve hrefs hidle hrun
  | job hrun => exact h.job hrefs hfits hrun
  | apply hrun => exact h.apply hrefs hrun
  | scan hidle hrun => exact h.scan hrefs hidle hrun
  | destroy hrun => exact h.destroy hrefs hrun
  | task hrun => exact h.task hrefs hrun
  | receiver htake =>
      obtain ⟨hsynced, hinfo⟩ := h.synced.takeCommand htake
      exact h.of_same hrefs hsynced hinfo h.made rfl rfl

theorem socketInv_start {cfg : SubscriberConfig} {n : Nat}
    {saved : List Subscriber.SavedChannelState} {worker : Subscriber}
    (hload : (Subscriber.new n).loadState cfg saved = some worker) (maxChannels : Nat)
    (startTimestamp : Option Clock) :
    (start worker (.start maxChannels startTimestamp)).SocketInv := by
  have hsame := SameSockets.loadState hload
  have hremovals : removals (start worker (.start maxChannels startTimestamp)) = [] := by
    rw [removals]
    show worker.spawned.filterMap Task.removal? ++ [] = []
    rw [hsame.removals]
    rfl
  refine ⟨refInv_start hload _, FlowsReceiver.synced_start _ _, fun job hjob => (by cases hjob),
    by rw [hremovals]; exact List.nodup_nil, fun f hf => ?_, fun f _ => ?_⟩
  · rw [hremovals] at hf
    cases hf
  · rw [due_of_no_jobs rfl]
    have hnone : socketsOf worker.flows f = none := by
      rw [socketsOf_congr (congrFun hsame.keys f), socketsOf, Subscriber.new]
      rfl
    refine Eq.trans ?_ hnone.symm
    show Option.map _ _ = _
    simp only [start, FlowsReceiver.start, List.getElem?_replicate]
    split <;> rfl

end RxWorld

open RxWorld in
/-- The sockets are those of the flows, in every run whose events meet the
condition. -/
theorem sockets_right (cfg : RxConfig) (n : Nat) (saved : List Subscriber.SavedChannelState)
    (worker : Subscriber)
    (hload : (Subscriber.new n).loadState cfg.toSubscriberConfig saved = some worker)
    (maxChannels : Nat) (startTimestamp : Option Clock) (w : RxWorld)
    (h : Reaches cfg (SocketFits cfg) (start worker (.start maxChannels startTimestamp)) w) :
    w.SocketsRight := by
  suffices hinv : w.SocketInv from hinv.right
  induction h with
  | refl => exact socketInv_start hload maxChannels startTimestamp
  | tail _ hstep ih =>
      obtain ⟨e, hfits, hrun⟩ := hstep
      exact ih.step hfits hrun

open RxWorld in
/-- The flow that carries the channel has its socket. -/
theorem sockets_right_connected :
    ∃ worker w socket, (Subscriber.new 1).loadState sampleRxConfig.toSubscriberConfig oneSaved =
        some worker ∧
      runWith sampleRxConfig (SocketFits sampleRxConfig) (start worker (.start 1 none))
        (connectOne ++ [.receiver none, .receiver none]) = some w ∧
      w.receiver.sockets[0]?.join = some socket ∧ socket.channels.length = 1 := by
  obtain ⟨worker, hload⟩ := Option.isSome_iff_exists.mp (show ((Subscriber.new 1).loadState
    sampleRxConfig.toSubscriberConfig oneSaved).isSome by decide)
  have hruns : (((Subscriber.new 1).loadState sampleRxConfig.toSubscriberConfig oneSaved).bind
      fun worker => (runWith sampleRxConfig (SocketFits sampleRxConfig) (start worker (.start 1 none))
        (connectOne ++ [.receiver none, .receiver none])).map fun w =>
          (w.isQuiet, w.receiver.commands.length, (w.worker.flows[0]?.join).map fun flow =>
            (flow.granted, flow.txChannels.length))) = some (true, 0, some (true, 1)) := by
    decide
  rw [hload, Option.bind_some] at hruns
  obtain ⟨w, hw, hend⟩ := Option.map_eq_some_iff.mp hruns
  simp only [Prod.mk.injEq] at hend
  obtain ⟨hquiet, hcommands, hflow⟩ := hend
  obtain ⟨flow, hflow, hsame⟩ := Option.map_eq_some_iff.mp hflow
  obtain ⟨hgranted, hlen⟩ := Prod.mk.inj hsame
  have hright := sockets_right sampleRxConfig 1 oneSaved worker hload 1 none w (reaches_of_runWith hw)
  obtain ⟨_, socket, hsocket, hslots, _⟩ := hright.sockets hquiet
    (List.length_eq_zero_iff.mp hcommands) 0 flow hflow hgranted
  exact ⟨worker, w, socket, hload, hw, hsocket, hslots.trans hlen⟩

/-- Channel `a` is in the first bundle of `h`. -/
def bundleAnswers : ResolveEnv where
  queryChan _ := some
    ⟨⟨0x0a000001, 4455⟩, 2, 1, 24, 0, 16, 64, 1000000, some ⟨"h", 1, 0⟩⟩
  queryBund _ := some ⟨2, 24, 1000000, ⟨0xef000001, 4321⟩⟩
  socketOk _ := true
  elapsed _ := 0

/-- No packet has come. -/
def silentScan : Subscriber.ScanEnv := ⟨fun _ => 0, 1, 0⟩

/-- The channel is connected through the bundle, unsubscribed, and subscribed
again before the task of the scan has run. -/
def reuseIndex : List RxEvent :=
  [.resolve bundleAnswers, .job 0 (.ok []), .receive 1 (some 0), .apply, .receive 0 (some 0), .finish,
    .task 1, .task 0, .receiver none, .receiver none, .unsubscribe 0, .handle, .scan silentScan,
    .subscribe 0 "a" "h", .deliver 0, .handle, .resolve bundleAnswers, .job 0 (.ok [])]

/-- The place that a command adds a socket at. -/
def RxCommand.added : RxCommand → Option Nat
  | .addSocket index _ => some index
  | _ => none

open RxWorld in
/-- The thread is told to add a socket where there is one. -/
theorem reused_index_is_occupied :
    ¬ ∀ worker, (Subscriber.new 1).loadState sampleRxConfig.toSubscriberConfig oneSaved =
        some worker → ∀ w, Reaches sampleRxConfig (fun _ _ => True)
          (start worker (.start 1 none)) w → w.SocketsRight := by
  intro h
  obtain ⟨worker, hload⟩ := Option.isSome_iff_exists.mp (show ((Subscriber.new 1).loadState
    sampleRxConfig.toSubscriberConfig oneSaved).isSome by decide)
  have hruns : (((Subscriber.new 1).loadState sampleRxConfig.toSubscriberConfig oneSaved).bind
      fun worker => (runWith sampleRxConfig (fun _ _ => True) (start worker (.start 1 none))
        reuseIndex).map fun w =>
          (w.receiver.commands.head?.bind RxCommand.added, w.receiver.socketShapes 0)) =
      some (some 0, some (2, 48)) := by decide
  rw [hload, Option.bind_some] at hruns
  obtain ⟨w, hw, hend⟩ := Option.map_eq_some_iff.mp hruns
  obtain ⟨hadded, hshape⟩ := Prod.mk.inj hend
  obtain ⟨c, hc, hadded⟩ := Option.bind_eq_some_iff.mp hadded
  have htakes := (h worker hload w (reaches_of_runWith hw)).takes c hc
  cases c with
  | addSocket index socket =>
      obtain rfl := Option.some.inj hadded
      have hempty := htakes.2
      rw [hshape] at hempty
      cases hempty
  | removeSocket => cases hadded
  | connectChannel => cases hadded
  | disconnectChannel => cases hadded

end Inferno
