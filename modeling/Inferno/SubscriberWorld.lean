import Inferno.FlowsReceiver
import Inferno.ResolveSubscriptions
import Mathlib.Logic.Relation

/-!
# The subscriber among the others

The clients, the worker with the futures it waits for, the spawned tasks and
the receiver, all interleaved (`RxWorld.step`). A call of `subscribe` writes
`subscriptions_info` at once; its command is sent later. While a resolution
runs, the worker takes no commands, but clients go on, the futures of each
server run one after the other, and updates are applied one by one as they
come in.

`none` is a panic, or an event that cannot happen now. Queues have no bound:
a sender that waits for room is a call that has not sent yet.
-/

namespace Inferno

def MAX_PAYLOAD_BYTES : Nat := 1400

/-- The packet size a flow is requested with; `none` is the division by zero. -/
def requestFpp (fppOverride : Option Nat) (first : AdvertisedChannel) (txChannels : Nat) :
    Option Nat :=
  let frameBytes := txChannels * first.bitsPerSample / 8
  if frameBytes = 0 then none
  else
    let fppMtuLimit := min (MAX_PAYLOAD_BYTES / frameBytes) 65535
    some (match fppOverride with
      | none => min first.fppMax fppMtuLimit
      | some n =>
          if n = 0 then first.fppMin
          else if n = 2 ^ 32 - 1 then min first.fppMax fppMtuLimit
          else max (min (n % 2 ^ 16) first.fppMax) first.fppMin)

/-- How a future ends. -/
inductive JobOutcome where
  | noSocket
  | failed
  | ok (handle : FlowHandle)

/-- A resolution under way: the futures of each server, the batches of updates
sent but not received, and the one being applied with its start time. -/
structure Resolving where
  executors : List (List Job)
  batches : List (List ChannelSourceUpdate)
  applying : List ChannelSourceUpdate
  now : Clock

/-- What the worker is doing. -/
inductive WorkerPhase where
  | idle
  | resolving (r : Resolving)
  | destroying (flows : List Subscriber.DestroyFlow)

/-- Everybody together. -/
structure RxWorld where
  worker : Subscriber
  running : Bool
  queue : List SubscriberCommand
  calls : List SubscriberCommand
  phase : WorkerPhase
  receiver : FlowsReceiver

/-- What happens next. -/
inductive RxEvent where
  | subscribe (localChannelIndex : Nat) (txChannelName txHostname : String)
  | unsubscribe (localChannelIndex : Nat)
  | saveState
  | shutdown
  | deliver (i : Nat)
  | handle
  | resolve (env : ResolveEnv)
  | job (k : Nat) (outcome : JobOutcome)
  | receive (i : Nat) (now : Option Clock)
  | apply
  | finish
  | scan (env : Subscriber.ScanEnv)
  | destroy (i : Nat)
  | task (i : Nat)
  | receiver (now : Option Clock)

/-- What an event is told from outside, for every run. -/
structure RxConfig extends SubscriberConfig where
  ringSize : RingId → Nat

namespace RxWorld

def start (worker : Subscriber) (receiver : FlowsReceiver) : RxWorld where
  worker := worker
  running := true
  queue := []
  calls := []
  phase := .idle
  receiver := receiver

/-! ## Clients -/

/-- `subscribe` up to its await. -/
def subscribe (w : RxWorld) (ch : Nat) (txChannelName txHostname : String) : Option RxWorld :=
  if ch < w.worker.subscriptionsInfo.length then
    let info := some ⟨txChannelName, txHostname, .unresolved⟩
    let worker := { w.worker with subscriptionsInfo := w.worker.subscriptionsInfo.set ch info }
    some { w with worker := worker, calls := w.calls ++ [.subscribe ch txChannelName txHostname] }
  else none

/-- The calls that only send. -/
def send (w : RxWorld) (c : SubscriberCommand) : RxWorld := { w with queue := w.queue ++ [c] }

/-- A call of `subscribe` sends its command. -/
def deliver (w : RxWorld) (i : Nat) : Option RxWorld := do
  let c ← w.calls[i]?
  some { w with queue := w.queue ++ [c], calls := w.calls.eraseIdx i }

/-! ## The worker -/

def handle (cfg : RxConfig) (w : RxWorld) : Option RxWorld :=
  match w.queue with
  | [] => none
  | c :: queue => do
      let next ← w.worker.handleCommand cfg.toSubscriberConfig c
      some (match next with
        | some worker => { w with worker := worker, queue := queue }
        | none => { w with running := false, queue := queue })

/-- Plans and spawns the futures; the updates that need no request are sent. -/
def resolve (cfg : RxConfig) (w : RxWorld) (env : ResolveEnv) : Option RxWorld := do
  let p ← planResolve cfg.toSubscriberConfig env w.worker.channels w.worker.flows
  let needsResolving :=
    if (neededChannelIndices w.worker.channels).isEmpty then false else w.worker.needsResolving
  some { w with
    worker := { w.worker with
      flows := p.flows, resolveNow := false, needsResolving := needsResolving }
    phase := .resolving ⟨p.futures.entries.map Prod.snd, [p.resolved], [], 0⟩ }

/-- What is left after the first future of an executor: the next ones, or
nothing if it has panicked. -/
def runJob (cfg : RxConfig) (w : RxWorld) (job : Job) (rest : List Job) (outcome : JobOutcome) :
    Option (RxWorld × List Job × Option (List ChannelSourceUpdate)) :=
  match job, outcome with
  | .updateFlow _ _ _ _ updates, .ok _ => some (w, rest, some updates)
  | .updateFlow .., .failed => some (w, rest, none)
  | .addMulticast flowIndex advbundle latencySamples updates, .ok _ =>
      let receiver := w.receiver.addSocket flowIndex false (advbundle.bitsPerSample / 8)
        advbundle.txChannelsPerFlow latencySamples
      some ({ w with receiver := receiver }, rest, some updates)
  | .requestFlow flowIndex .., .noSocket =>
      let flows := w.worker.flows.set flowIndex none
      some ({ w with worker := { w.worker with flows := flows } }, rest, none)
  | .requestFlow flowIndex first txChannels _ _ updates, .failed =>
      match requestFpp cfg.fppOverride first txChannels.length with
      | none => some (w, [], none)
      | some _ => do
          let worker ← (updates.flatMap (·.localChannelIndices)).foldlM Subscriber.txFail w.worker
          let flows := worker.flows.set flowIndex none
          some ({ w with worker := { worker with flows := flows } }, rest, none)
  | .requestFlow flowIndex first txChannels _ latencySamples updates, .ok handle =>
      match requestFpp cfg.fppOverride first txChannels.length with
      | none => some (w, [], none)
      | some _ =>
          if first.bitsPerSample % 8 ≠ 0 then some (w, [], none)
          else do
            let receiver := w.receiver.addSocket flowIndex true (first.bitsPerSample / 8)
              txChannels.length latencySamples
            let flow ← w.worker.flows[flowIndex]?.join
            let source := match flow.source with
              | .unicast addr dbcp1 _ => .unicast addr dbcp1 (some handle)
              | .multicast name => .multicast name
            let flows := w.worker.flows.set flowIndex (some { flow with source := source })
            some ({ w with worker := { w.worker with flows := flows }, receiver := receiver }, rest,
              some updates)
  | _, _ => none

def job (cfg : RxConfig) (w : RxWorld) (k : Nat) (outcome : JobOutcome) : Option RxWorld :=
  match w.phase with
  | .resolving r =>
      match r.executors[k]? with
      | some (job :: rest) => do
          let (w, rest, sent) ← w.runJob cfg job rest outcome
          some { w with phase := .resolving { r with
            executors := r.executors.set k rest
            batches := r.batches ++ sent.toList } }
      | _ => none
  | _ => none

/-- The next batch; it is dropped if there is no clock. -/
def receiveBatch (w : RxWorld) (i : Nat) (now : Option Clock) : Option RxWorld :=
  match w.phase with
  | .resolving r =>
      match r.applying, r.batches[i]? with
      | [], some batch =>
          let r := { r with batches := r.batches.eraseIdx i }
          some { w with phase := .resolving (match now with
            | some now => { r with applying := batch, now := now }
            | none => r) }
      | _, _ => none
  | _ => none

def apply (cfg : RxConfig) (w : RxWorld) : Option RxWorld :=
  match w.phase with
  | .resolving r =>
      match r.applying with
      | [] => none
      | upd :: rest => do
          let worker ← w.worker.applyUpdate cfg.toSubscriberConfig r.now upd
          some { w with worker := worker, phase := .resolving { r with applying := rest } }
  | _ => none

/-- The end of a resolution: all futures have run and all updates are applied. -/
def finish (w : RxWorld) : Option RxWorld :=
  match w.phase with
  | .resolving r =>
      if r.executors.all List.isEmpty && r.batches.isEmpty && r.applying.isEmpty then
        some { w with phase := .idle }
      else none
  | _ => none

def scan (cfg : RxConfig) (w : RxWorld) (env : Subscriber.ScanEnv) : Option RxWorld := do
  let (worker, destroy) ← w.worker.scanFlows cfg.toSubscriberConfig env
  some { w with
    worker := worker
    phase := if destroy.isEmpty then .idle else .destroying destroy }

/-- One of the flows of the scan is stopped; its socket goes. -/
def destroy (w : RxWorld) (i : Nat) : Option RxWorld :=
  match w.phase with
  | .destroying flows => do
      let d ← flows[i]?
      let rest := flows.eraseIdx i
      some { w with
        receiver := w.receiver.removeSocket d.flowIndex
        phase := if rest.isEmpty then .idle else .destroying rest }
  | _ => none

/-! ## Tasks -/

/-- What a spawned task does to the receiver; the collector is elsewhere. -/
def runTask (rx : FlowsReceiver) : Task → FlowsReceiver
  | .receiverConnect f c chi sink => rx.connectChannel f c chi sink
  | .receiverDisconnect f c chi rbShared => rx.disconnectChannel f c chi rbShared
  | .removeSocket f => rx.removeSocket f
  | .collectorConnect .. => rx
  | .collectorDisconnect _ => rx

/-- Any spawned task runs. -/
def task (w : RxWorld) (i : Nat) : Option RxWorld := do
  let t ← w.worker.spawned[i]?
  some { w with
    worker := { w.worker with spawned := w.worker.spawned.eraseIdx i }
    receiver := runTask w.receiver t }

/-- The worker takes up something new. -/
def isFree (w : RxWorld) : Bool :=
  w.running && match w.phase with
    | .idle => true
    | _ => false

def step (cfg : RxConfig) (w : RxWorld) : RxEvent → Option RxWorld
  | .subscribe ch txChannelName txHostname => w.subscribe ch txChannelName txHostname
  | .unsubscribe ch => some (w.send (.unsubscribe ch))
  | .saveState => some (w.send .forceRefresh)
  | .shutdown => some (w.send .shutdown)
  | .deliver i => w.deliver i
  | .handle => if w.isFree then w.handle cfg else none
  | .resolve env => if w.isFree then w.resolve cfg env else none
  | .job k outcome => w.job cfg k outcome
  | .receive i now => w.receiveBatch i now
  | .apply => w.apply cfg
  | .finish => w.finish
  | .scan env => if w.isFree then w.scan cfg env else none
  | .destroy i => w.destroy i
  | .task i => w.task i
  | .receiver now =>
      (w.receiver.takeCommand now cfg.ringSize).map fun receiver => { w with receiver := receiver }

/-! ## What a step can do -/

variable {cfg : RxConfig} {w w' : RxWorld}

theorem isFree_idle (h : w.isFree = true) : w.phase = .idle := by
  unfold isFree at h
  rcases hphase : w.phase with _ | r | ds
  · rfl
  · simp [hphase] at h
  · simp [hphase] at h

theorem handle_cases (hrun : w.handle cfg = some w') :
    ∃ c queue next, w.queue = c :: queue ∧
      w.worker.handleCommand cfg.toSubscriberConfig c = some next ∧
      w' = match next with
        | some worker => { w with worker := worker, queue := queue }
        | none => { w with running := false, queue := queue } := by
  unfold handle at hrun
  split at hrun
  · cases hrun
  next c queue hqueue =>
  obtain ⟨next, hnext, hrun⟩ := Option.bind_eq_some_iff.mp hrun
  exact ⟨c, queue, next, hqueue, hnext, (Option.some.inj hrun).symm⟩

theorem job_cases {k : Nat} {outcome : JobOutcome} (hrun : w.job cfg k outcome = some w') :
    ∃ r job rest w₁ rest' batch, w.phase = .resolving r ∧
      r.executors[k]? = some (job :: rest) ∧
      w.runJob cfg job rest outcome = some (w₁, rest', batch) ∧
      w' = { w₁ with phase := .resolving { r with
        executors := r.executors.set k rest'
        batches := r.batches ++ batch.toList } } := by
  unfold job at hrun
  split at hrun
  swap
  · cases hrun
  next r hphase =>
  split at hrun
  swap
  · cases hrun
  next job rest hk =>
  obtain ⟨⟨w₁, rest', batch⟩, hjob, hrun⟩ := Option.bind_eq_some_iff.mp hrun
  exact ⟨r, job, rest, w₁, rest', batch, hphase, hk, hjob, (Option.some.inj hrun).symm⟩

theorem receive_cases {i : Nat} {now : Option Clock} (hrun : w.receiveBatch i now = some w') :
    ∃ r batch, w.phase = .resolving r ∧ r.applying = [] ∧ r.batches[i]? = some batch ∧
      w' = { w with phase := .resolving (now.elim { r with batches := r.batches.eraseIdx i }
        fun now => { r with batches := r.batches.eraseIdx i, applying := batch, now := now }) } := by
  unfold receiveBatch at hrun
  split at hrun
  swap
  · cases hrun
  next r hphase =>
  split at hrun
  swap
  · cases hrun
  next batch happlying hbatch =>
  refine ⟨r, batch, hphase, happlying, hbatch, (Option.some.inj hrun).symm.trans ?_⟩
  cases now <;> rfl

theorem apply_cases (hrun : w.apply cfg = some w') :
    ∃ r upd rest worker, w.phase = .resolving r ∧ r.applying = upd :: rest ∧
      w.worker.applyUpdate cfg.toSubscriberConfig r.now upd = some worker ∧
      w' = { w with worker := worker, phase := .resolving { r with applying := rest } } := by
  unfold apply at hrun
  split at hrun
  swap
  · cases hrun
  next r hphase =>
  split at hrun
  · cases hrun
  next upd rest happlying =>
  obtain ⟨worker, happly, hrun⟩ := Option.bind_eq_some_iff.mp hrun
  exact ⟨r, upd, rest, worker, hphase, happlying, happly, (Option.some.inj hrun).symm⟩

theorem finish_cases (hrun : w.finish = some w') :
    ∃ r, w.phase = .resolving r ∧ (∀ jobs ∈ r.executors, jobs = []) ∧ r.batches = [] ∧
      r.applying = [] ∧ w' = { w with phase := .idle } := by
  unfold finish at hrun
  split at hrun
  swap
  · cases hrun
  next r hphase =>
  split at hrun
  swap
  · cases hrun
  next hdone =>
  simp only [Bool.and_eq_true, List.all_eq_true, List.isEmpty_iff] at hdone
  exact ⟨r, hphase, hdone.1.1, hdone.1.2, hdone.2, (Option.some.inj hrun).symm⟩

theorem destroy_cases {i : Nat} (hrun : w.destroy i = some w') :
    ∃ ds d, w.phase = .destroying ds ∧ ds[i]? = some d ∧ w' = { w with
      receiver := w.receiver.removeSocket d.flowIndex
      phase := if (ds.eraseIdx i).isEmpty then .idle else .destroying (ds.eraseIdx i) } := by
  unfold destroy at hrun
  split at hrun
  swap
  · cases hrun
  next ds hphase =>
  obtain ⟨d, hd, hrun⟩ := Option.bind_eq_some_iff.mp hrun
  exact ⟨ds, d, hphase, hd, (Option.some.inj hrun).symm⟩

theorem task_cases {i : Nat} (hrun : w.task i = some w') :
    ∃ t, w.worker.spawned[i]? = some t ∧ w' = { w with
      worker := { w.worker with spawned := w.worker.spawned.eraseIdx i }
      receiver := runTask w.receiver t } := by
  obtain ⟨t, ht, hrun⟩ := Option.bind_eq_some_iff.mp hrun
  exact ⟨t, ht, (Option.some.inj hrun).symm⟩

/-! ## Runs -/

/-- The worlds a run gets to without a panic, with what every event of it meets
in the world it happens in. -/
def Reaches (cfg : RxConfig) (P : RxWorld → RxEvent → Prop) : RxWorld → RxWorld → Prop :=
  Relation.ReflTransGen fun v u => ∃ e, P v e ∧ v.step cfg e = some u

/-- Such a run, carried out. -/
def runWith (cfg : RxConfig) (P : RxWorld → RxEvent → Prop) [∀ w e, Decidable (P w e)]
    (w : RxWorld) : List RxEvent → Option RxWorld
  | [] => some w
  | e :: es => if P w e then (w.step cfg e).bind fun w => w.runWith cfg P es else none

theorem reaches_of_runWith {cfg : RxConfig} {P : RxWorld → RxEvent → Prop}
    [∀ w e, Decidable (P w e)] {events : List RxEvent} {w u : RxWorld}
    (h : w.runWith cfg P events = some u) : Reaches cfg P w u := by
  induction events generalizing w with
  | nil =>
      obtain rfl := Option.some.inj h
      exact .refl
  | cons e es ih =>
      rw [runWith] at h
      split at h
      · next hP =>
          obtain ⟨v, hv, h⟩ := Option.bind_eq_some_iff.mp h
          exact .head ⟨e, hP, hv⟩ (ih h)
      · cases h

end RxWorld

end Inferno
