import Inferno.Promises

/-!
# The reference counts in every run

The invariant of `Refcounts` and `Promises`, step by step over everything that
the subscriber and those around it do.
-/

namespace Inferno

open Partial

namespace RxWorld

/-- The futures that have still to run. -/
def jobs (w : RxWorld) : List Job :=
  match w.phase with
  | .resolving r => r.executors.flatten
  | _ => []

/-- The updates that are sent but not applied. -/
def sent (w : RxWorld) : List ChannelSourceUpdate :=
  match w.phase with
  | .resolving r => r.batches.flatten ++ r.applying
  | _ => []

/-! ## What a step can do -/

/-- Who is connected, the flows, the tasks and the receiver stay, no future and
no update is added, and no flow begins or ends to be destroyed. -/
structure Quiet (w w' : RxWorld) : Prop where
  channels : w'.worker.channels = w.worker.channels
  flows : w'.worker.flows = w.worker.flows
  spawned : w'.worker.spawned = w.worker.spawned
  receiver : w'.receiver = w.receiver
  jobs : w'.jobs = w.jobs
  sent : ∃ sent, w'.sent.Perm sent ∧ sent.Sublist w.sent
  destroying : ∀ ds, w'.phase = .destroying ds ↔ w.phase = .destroying ds

inductive StepCase (cfg : RxConfig) (w : RxWorld) : RxEvent → RxWorld → Prop
  | quiet {e : RxEvent} {w' : RxWorld} : Quiet w w' → StepCase cfg w e w'
  | handle {w' : RxWorld} : w.phase = .idle → w.handle cfg = some w' → StepCase cfg w .handle w'
  | resolve {env : ResolveEnv} {w' : RxWorld} : w.phase = .idle → w.resolve cfg env = some w' →
      StepCase cfg w (.resolve env) w'
  | job {k : Nat} {outcome : JobOutcome} {w' : RxWorld} : w.job cfg k outcome = some w' →
      StepCase cfg w (.job k outcome) w'
  | apply {w' : RxWorld} : w.apply cfg = some w' → StepCase cfg w .apply w'
  | scan {env : Subscriber.ScanEnv} {w' : RxWorld} : w.phase = .idle → w.scan cfg env = some w' →
      StepCase cfg w (.scan env) w'
  | destroy {i : Nat} {w' : RxWorld} : w.destroy i = some w' → StepCase cfg w (.destroy i) w'
  | task {i : Nat} {w' : RxWorld} : w.task i = some w' → StepCase cfg w (.task i) w'
  | receiver {now : Option Clock} {rx : FlowsReceiver} :
      w.receiver.takeCommand now cfg.ringSize = some rx →
      StepCase cfg w (.receiver now) { w with receiver := rx }

variable {cfg : RxConfig} {w w' : RxWorld}

/-- The clients do not get in the worker's way. -/
theorem Quiet.client (hchannels : w'.worker.channels = w.worker.channels)
    (hflows : w'.worker.flows = w.worker.flows) (hspawned : w'.worker.spawned = w.worker.spawned)
    (hreceiver : w'.receiver = w.receiver) (hphase : w'.phase = w.phase) : Quiet w w' where
  channels := hchannels
  flows := hflows
  spawned := hspawned
  receiver := hreceiver
  jobs := by rw [RxWorld.jobs, RxWorld.jobs, hphase]
  sent := ⟨w.sent, .of_eq (by rw [RxWorld.sent, RxWorld.sent, hphase]), .refl _⟩
  destroying _ := by rw [hphase]

theorem Quiet.receive {i : Nat} {now : Option Clock} (hrun : w.receiveBatch i now = some w') :
    Quiet w w' := by
  obtain ⟨r, batch, hphase, happlying, hbatch, rfl⟩ := receive_cases hrun
  have hsent : w.sent = r.batches.flatten := by rw [RxWorld.sent, hphase]; simp [happlying]
  obtain ⟨hlt, hget⟩ := List.getElem?_eq_some_iff.mp hbatch
  have hperm : (batch ++ (r.batches.eraseIdx i).flatten).Perm r.batches.flatten := by
    have h := (List.getElem_cons_eraseIdx_perm hlt).flatten
    rwa [hget, List.flatten_cons] at h
  refine ⟨rfl, rfl, rfl, rfl, ?_, ?_, fun ds => ?_⟩
  · rw [RxWorld.jobs, RxWorld.jobs, hphase]
    cases now <;> rfl
  · rw [hsent]
    cases now with
    | none =>
        refine ⟨(r.batches.eraseIdx i).flatten, .of_eq ?_, (List.eraseIdx_sublist _ _).flatten⟩
        show (r.batches.eraseIdx i).flatten ++ r.applying = _
        rw [happlying, List.append_nil]
    | some now => exact ⟨r.batches.flatten, List.perm_append_comm.trans hperm, .refl _⟩
  · rw [hphase]
    exact ⟨fun h => (by cases h), fun h => (by cases h)⟩

theorem Quiet.finish (hrun : w.finish = some w') : Quiet w w' := by
  obtain ⟨r, hphase, hdone, _, _, rfl⟩ := finish_cases hrun
  refine ⟨rfl, rfl, rfl, rfl, ?_, ⟨[], .refl _, List.nil_sublist _⟩, fun ds => ?_⟩
  · rw [RxWorld.jobs, RxWorld.jobs, hphase]
    exact (List.flatten_eq_nil_iff.mpr hdone).symm
  · rw [hphase]
    exact ⟨fun h => (by cases h), fun h => (by cases h)⟩

theorem step_case {e : RxEvent} (hrun : w.step cfg e = some w') : StepCase cfg w e w' := by
  cases e with
  | subscribe ch txChannelName txHostname =>
      rw [RxWorld.step, RxWorld.subscribe] at hrun
      split at hrun
      · obtain rfl := Option.some.inj hrun
        exact .quiet (.client rfl rfl rfl rfl rfl)
      · cases hrun
  | unsubscribe ch =>
      obtain rfl := Option.some.inj hrun
      exact .quiet (.client rfl rfl rfl rfl rfl)
  | saveState =>
      obtain rfl := Option.some.inj hrun
      exact .quiet (.client rfl rfl rfl rfl rfl)
  | shutdown =>
      obtain rfl := Option.some.inj hrun
      exact .quiet (.client rfl rfl rfl rfl rfl)
  | deliver i =>
      obtain ⟨c, _, hrun⟩ := Option.bind_eq_some_iff.mp hrun
      obtain rfl := Option.some.inj hrun
      exact .quiet (.client rfl rfl rfl rfl rfl)
  | handle =>
      rw [RxWorld.step] at hrun
      split at hrun
      · next hfree => exact .handle (isFree_idle hfree) hrun
      · cases hrun
  | resolve env =>
      rw [RxWorld.step] at hrun
      split at hrun
      · next hfree => exact .resolve (isFree_idle hfree) hrun
      · cases hrun
  | job k outcome => exact .job hrun
  | receive i now => exact .quiet (.receive hrun)
  | apply => exact .apply hrun
  | finish => exact .quiet (.finish hrun)
  | scan env =>
      rw [RxWorld.step] at hrun
      split at hrun
      · next hfree => exact .scan (isFree_idle hfree) hrun
      · cases hrun
  | destroy i => exact .destroy hrun
  | task i => exact .task hrun
  | receiver now =>
      obtain ⟨receiver, htake, rfl⟩ := Option.map_eq_some_iff.mp hrun
      exact .receiver htake

/-! ## Promises -/

/-- The invariant. -/
structure RefInv (w : RxWorld) : Prop where
  exact : RefcountsExact w.worker
  bundles : (Plan.bundleNames w.worker.flows).Nodup
  promises : Promised w.worker w.jobs w.sent

theorem idle_promises (h : w.phase = .idle) : w.jobs = [] ∧ w.sent = [] := by
  rw [jobs, sent, h]
  exact ⟨rfl, rfl⟩

theorem RefInv.quiet (h : w.RefInv) (hquiet : Quiet w w') :
    w'.RefInv ∧ Stays w.worker.flows w'.worker.flows := by
  have hstays : Stays w.worker.flows w'.worker.flows := by
    rw [hquiet.flows]
    exact .refl _
  obtain ⟨sent', hsent, hsub⟩ := hquiet.sent
  refine ⟨⟨h.exact.of_eq hquiet.channels hquiet.flows, hquiet.flows ▸ h.bundles, ?_⟩, hstays⟩
  exact (h.promises.subperm (.of_eq hquiet.jobs) (.refl _) hsent hsub).of_kept hstays.kept
    hquiet.channels

/-! ## Commands and the scan -/

theorem RefInv.handle (h : w.RefInv) (hjobs : w.jobs = []) (hsent : w.sent = [])
    (hrun : w.handle cfg = some w') : w'.RefInv ∧ Stays w.worker.flows w'.worker.flows := by
  obtain ⟨c, queue, next, hqueue, hnext, rfl⟩ := handle_cases hrun
  have hnothing : ∀ worker : Subscriber, Promised worker w.jobs w.sent := by
    intro worker
    rw [hjobs, hsent]
    exact .nothing worker
  cases c with
  | shutdown =>
      obtain rfl := Option.some.inj hnext
      exact ⟨⟨h.exact, h.bundles, h.promises⟩, .refl _⟩
  | forceRefresh =>
      obtain rfl := Option.some.inj hnext
      exact ⟨⟨h.exact, h.bundles, h.promises⟩, .refl _⟩
  | subscribe ch txChannelName txHostname =>
      obtain ⟨worker, hsub, rfl⟩ := Option.map_eq_some_iff.mp hnext
      obtain ⟨hexact, hstays⟩ := h.exact.subscribe hsub
      exact ⟨⟨hexact, h.bundles.sublist hstays.kept.bundleNames, hnothing worker⟩, hstays⟩
  | unsubscribe ch =>
      obtain ⟨worker, hun, rfl⟩ := Option.map_eq_some_iff.mp hnext
      obtain ⟨hexact, hstays, _⟩ := h.exact.unsubscribe hun
      exact ⟨⟨hexact, h.bundles.sublist hstays.kept.bundleNames, hnothing worker⟩, hstays⟩

theorem RefInv.scan (h : w.RefInv) {env : Subscriber.ScanEnv} (hrun : w.scan cfg env = some w') :
    w'.RefInv ∧ Stays w.worker.flows w'.worker.flows := by
  obtain ⟨⟨worker, destroy⟩, hscan, hrun⟩ := Option.bind_eq_some_iff.mp hrun
  obtain rfl := Option.some.inj hrun
  obtain ⟨hexact, hstays⟩ := h.exact.scanFlows hscan
  refine ⟨⟨hexact, h.bundles.sublist hstays.kept.bundleNames, ?_⟩, hstays⟩
  cases destroy <;> exact .nothing worker

/-! ## A resolution -/

theorem RefInv.resolve (h : w.RefInv) {env : ResolveEnv} (hrun : w.resolve cfg env = some w') :
    w'.RefInv ∧ KeepsUsed w.worker w'.worker := by
  unfold RxWorld.resolve at hrun
  obtain ⟨p, hplan, hrun⟩ := Option.bind_eq_some_iff.mp hrun
  obtain rfl := Option.some.inj hrun
  obtain ⟨hplaced, hbundles⟩ := planResolve_placed hplan
    (fun chi r hr => h.exact.inUse hr) h.bundles
  have hnodup := planResolve_nodup hplan h.bundles
  have hunserved : ∀ u ∈ p.updates, ∀ chi ∈ u.localChannelIndices,
      remoteOf w.worker.channels chi = none := by
    intro u hu chi hchi
    obtain ⟨sub, hsub, hnone⟩ := planResolve_unserved hplan u hu chi hchi
    rw [remoteOf, hsub, Option.join_some, Option.bind_some, hnone]
  have hold : ∀ chi r, remoteOf w.worker.channels chi = some r →
      ∃ flow, flowAt w.worker.flows r = some flow ∧ flowAt p.flows r = some flow := by
    intro chi r hr
    obtain ⟨flow, hflow, _⟩ := h.exact.slots chi r hr
    exact ⟨flow, hflow, hplaced.old _ flow hflow⟩
  have hperm : (promised p.jobs p.resolved).Perm p.updates := List.perm_append_comm
  refine ⟨⟨⟨fun f flow hf c rc hrc => ?_, fun chi r hr => ?_, fun chi r hr flow hflow hbundle => ?_⟩,
    hbundles, ?_⟩, fun f flow flow' hf hf' _ c _ => ?_⟩
  · rcases hplaced.fresh f flow hf with hf | ⟨hnone, hzero⟩
    · exact h.exact.counts f flow hf c rc hrc
    · rw [hzero rc (List.mem_of_getElem? hrc)]
      refine (Int.natCast_eq_zero.mpr (Nat.eq_zero_of_not_pos fun hpos => ?_)).symm
      obtain ⟨chi, r, hr, hindex, _⟩ := exists_of_slotUsers_pos hpos
      obtain ⟨flow', hflow', _⟩ := h.exact.slots chi r hr
      rw [flowAt, hindex, hnone] at hflow'
      cases hflow'
  · obtain ⟨flow, hflow, hlt, hlt'⟩ := h.exact.slots chi r hr
    exact ⟨flow, hplaced.old _ flow hflow, hlt, hlt'⟩
  · obtain ⟨flow', hflow', hnew⟩ := hold chi r hr
    change flowAt p.flows r = some flow at hflow
    rw [hnew] at hflow
    obtain rfl := Option.some.inj hflow
    exact h.exact.carries chi r hr flow' hflow' hbundle
  · have hsent : [p.resolved].flatten ++ [] = p.resolved := by simp
    have hjobs : (p.futures.entries.map Prod.snd).flatten = p.jobs := (List.flatMap_def ..).symm
    show Promised _ (p.futures.entries.map Prod.snd).flatten ([p.resolved].flatten ++ [])
    rw [hsent, hjobs]
    refine ⟨(hperm.flatMap_right _).nodup_iff.mpr hnodup, fun u hu => hunserved u (hperm.subset hu),
      fun u hu v hv => hplaced.compatible_of_mem (hperm.subset hu) (hperm.subset hv),
      fun chi r hr u hu => ?_, fun job hjob f hf => ?_, hplaced.apart⟩
    · intro flow hflow hbundle hindex hslot
      obtain ⟨flow', hflow', hnew⟩ := hold chi r hr
      have hsame : flow' = flow := Option.some.inj (hnew.symm.trans hflow)
      subst hsame
      obtain ⟨flow'', hflow'', hused⟩ := (h.exact.inUse hr).there
      obtain rfl := Option.some.inj (hflow'.symm.trans hflow'')
      have hcarries := h.exact.carries chi r hr flow' hflow' hbundle
      have hwill := hplaced.used u (hperm.subset hu) flow' (by rw [flowAt, ← hindex]; exact hflow')
        hbundle (hslot ▸ hused)
      rw [hslot, hwill] at hcarries
      exact (Option.some.inj (Option.some.inj hcarries)).symm
    · obtain ⟨hnone, _, _⟩ := hplaced.newFlow job hjob f hf
      refine ⟨fun chi r hr heq => ?_, fun u hu heq => ?_⟩
      · obtain ⟨flow, hflow, _⟩ := h.exact.slots chi r hr
        rw [flowAt, heq, hnone] at hflow
        cases hflow
      · have hsome := hplaced.resolved u hu
        rw [flowAt, heq, hnone] at hsome
        cases hsome
  · have hnew := hplaced.old f flow hf
    obtain rfl := Option.some.inj (hnew.symm.trans hf')
    rfl

theorem txFail_all {s s' : Subscriber} {l : List Nat} (h : l.foldlM Subscriber.txFail s = some s') :
    s'.channels = s.channels ∧ s'.flows = s.flows ∧ s'.spawned = s.spawned := by
  refine foldlM_inv (I := fun v : Subscriber => v.channels = s.channels ∧ v.flows = s.flows ∧
    v.spawned = s.spawned) (fun v chi v' _ hv hfail => ?_) ⟨rfl, rfl, rfl⟩ h
  rw [(Subscriber.txFail_cases hfail).2]
  exact hv

/-- Flows go, or stay as far as their slots are concerned. -/
def SameSlots (flows flows' : List (Option RxFlow)) : Prop :=
  ∀ (f : Nat) flow', flows'[f]?.join = some flow' → ∃ flow, flows[f]?.join = some flow ∧
    flow'.bundle = flow.bundle ∧ flow'.txChannels = flow.txChannels ∧
      flow'.channelsRefcount = flow.channelsRefcount

theorem SameSlots.refl (flows : List (Option RxFlow)) : SameSlots flows flows :=
  fun _ flow hflow => ⟨flow, hflow, rfl, rfl, rfl⟩

theorem SameSlots.stays {flows flows' : List (Option RxFlow)} (h : SameSlots flows flows') :
    Stays flows flows' :=
  fun f flow' hf => (h f flow' hf).imp fun _ hflow => ⟨hflow.1, hflow.2.1, hflow.2.2.1⟩

/-- A future leaves the slots of the flows alone; if it fails its new flow may
go. -/
theorem runJob_flows {job : Job} {rest rest' : List Job} {outcome : JobOutcome}
    {batch : Option (List ChannelSourceUpdate)}
    (hrun : w.runJob cfg job rest outcome = some (w', rest', batch)) :
    w'.worker.channels = w.worker.channels ∧ (rest' = rest ∨ rest' = []) ∧
      (batch = none ∨ batch = some job.updates) ∧
      SameSlots w.worker.flows w'.worker.flows ∧
      ∀ f, f ∉ job.newFlow → (w.worker.flows[f]?.join).isSome →
        (w'.worker.flows[f]?.join).isSome := by
  have hgone : ∀ {worker : Subscriber} {i : Nat}, worker.flows = w.worker.flows.set i none →
      job.newFlow = some i → SameSlots w.worker.flows worker.flows ∧
        ∀ f, f ∉ job.newFlow → (w.worker.flows[f]?.join).isSome → (worker.flows[f]?.join).isSome := by
    intro worker i hflows hnew
    refine ⟨fun f flow' hf => ?_, fun f hf hsome => ?_⟩
    · rw [hflows, join_set_none] at hf
      split at hf
      · cases hf
      · exact ⟨flow', hf, rfl, rfl, rfl⟩
    · rw [hflows, join_set_none, if_neg]
      · exact hsome
      · rintro rfl
        exact hf hnew
  unfold RxWorld.runJob at hrun
  split at hrun
  · cases hrun
    exact ⟨rfl, .inl rfl, .inr rfl, .refl _, fun _ _ hsome => hsome⟩
  · cases hrun
    exact ⟨rfl, .inl rfl, .inl rfl, .refl _, fun _ _ hsome => hsome⟩
  · cases hrun
    exact ⟨rfl, .inl rfl, .inr rfl, .refl _, fun _ _ hsome => hsome⟩
  · cases hrun
    exact ⟨rfl, .inl rfl, .inl rfl, hgone rfl rfl⟩
  · split at hrun
    · cases hrun
      exact ⟨rfl, .inr rfl, .inl rfl, .refl _, fun _ _ hsome => hsome⟩
    · obtain ⟨worker, hfail, hrun⟩ := Option.bind_eq_some_iff.mp hrun
      cases hrun
      obtain ⟨hchannels, hflows, _⟩ := txFail_all hfail
      exact ⟨hchannels, .inl rfl, .inl rfl, hgone (by rw [← hflows]) rfl⟩
  · split at hrun
    · cases hrun
      exact ⟨rfl, .inr rfl, .inl rfl, .refl _, fun _ _ hsome => hsome⟩
    split at hrun
    · cases hrun
      exact ⟨rfl, .inr rfl, .inl rfl, .refl _, fun _ _ hsome => hsome⟩
    · obtain ⟨flow, hflow, hrun⟩ := Option.bind_eq_some_iff.mp hrun
      cases hrun
      refine ⟨rfl, .inl rfl, .inr rfl, fun f flow' hf => ?_, fun f _ hsome => ?_⟩
      · dsimp only at hf
        rw [join_set (join_lt hflow)] at hf
        split at hf
        · next heq =>
            obtain rfl := Option.some.inj hf
            refine ⟨flow, heq ▸ hflow, ?_, rfl, rfl⟩
            rw [RxFlow.bundle, RxFlow.bundle]
            dsimp only
            cases flow.source <;> rfl
        · exact ⟨flow', hf, rfl, rfl, rfl⟩
      · dsimp only
        rw [join_set (join_lt hflow)]
        split
        · rfl
        · exact hsome
  · cases hrun

/-- The first future of an executor, among all. -/
theorem executors_perm {executors : List (List Job)} {k : Nat} {job : Job} {rest rest' : List Job}
    (hk : executors[k]? = some (job :: rest)) (hrest : rest' = rest ∨ rest' = []) :
    ∃ others, executors.flatten.Perm (job :: others) ∧
      ((executors.set k rest').flatten).Sublist others := by
  obtain ⟨hlt, hget⟩ := List.getElem?_eq_some_iff.mp hk
  obtain ⟨l₁, l₂, hl, _, hset⟩ := @List.exists_of_set _ k rest' executors hlt
  rw [hget] at hl
  refine ⟨l₁.flatten ++ (rest ++ l₂.flatten), ?_, ?_⟩
  · rw [hl, List.flatten_append, List.flatten_cons, List.cons_append]
    exact List.perm_middle
  · rw [hset, List.flatten_append, List.flatten_cons]
    refine List.Sublist.append_left ?_ _
    refine List.Sublist.append_right ?_ _
    rcases hrest with rfl | rfl
    · exact .refl _
    · exact List.nil_sublist _

theorem RefInv.job (h : w.RefInv) {k : Nat} {outcome : JobOutcome}
    (hrun : w.job cfg k outcome = some w') : w'.RefInv ∧ Stays w.worker.flows w'.worker.flows := by
  obtain ⟨r, job, rest, w₁, rest', batch, hphase, hk, hjob, rfl⟩ := job_cases hrun
  obtain ⟨hchannels, hrest, hbatch, hsame, hthere⟩ := runJob_flows hjob
  obtain ⟨others, hperm, hsub⟩ := executors_perm hk hrest
  have hpromises := h.promises
  rw [jobs, sent, hphase] at hpromises
  have hjobs : Promised w.worker (job :: others) (r.batches.flatten ++ r.applying) :=
    hpromises.subperm hperm.symm (.refl _) (.refl _) (.refl _)
  -- what is promised now, before anything happens to the flows
  have hnext : Promised w.worker (r.executors.set k rest').flatten
      ((r.batches ++ batch.toList).flatten ++ r.applying) := by
    rcases hbatch with rfl | rfl
    · refine hjobs.subperm (.refl _) (hsub.cons _) (.of_eq ?_) (.refl _)
      simp
    · refine hjobs.send.subperm (.refl _) hsub ?_ (.refl _)
      rw [List.flatten_append, List.append_assoc, List.append_assoc]
      refine List.Perm.append_left _ ?_
      simpa using List.perm_append_comm
  have hstays := hsame.stays
  refine ⟨⟨h.exact.of_less hstays (fun f flow flow' hf hf' => ?_) fun chi r hr => ?_,
    h.bundles.sublist hstays.kept.bundleNames, hnext.of_kept hstays.kept hchannels⟩, hstays⟩
  · obtain ⟨flow₀, hflow₀, _, _, hcounts⟩ := hsame f flow' hf'
    rw [hf] at hflow₀
    obtain rfl := Option.some.inj hflow₀
    dsimp only
    rw [hcounts, hchannels]
    exact ⟨rfl, fun c rc hrc => ⟨rc, hrc, rfl⟩⟩
  · change remoteOf w₁.worker.channels chi = some r at hr
    rw [hchannels] at hr
    obtain ⟨flow, hflow, _⟩ := h.exact.slots chi r hr
    refine ⟨hr, hthere _ (fun hf => ?_) (by rw [← flowAt, hflow]; rfl)⟩
    exact (hjobs.newFlow job List.mem_cons_self _ hf).1 chi r hr rfl

/-! ## Updates -/

/-- The update that is applied has been promised, with those that come after. -/
theorem RefInv.first (h : w.RefInv) {r : Resolving} {upd : ChannelSourceUpdate}
    {rest : List ChannelSourceUpdate} (hphase : w.phase = .resolving r)
    (happlying : r.applying = upd :: rest) :
    Promised w.worker r.executors.flatten (upd :: (r.batches.flatten ++ rest)) := by
  have hpromises := h.promises
  rw [jobs, sent, hphase] at hpromises
  refine hpromises.subperm (.refl _) (.refl _) ?_ (.refl _)
  dsimp only
  rw [happlying]
  exact List.perm_middle.symm

theorem RefInv.apply (h : w.RefInv) (hrun : w.apply cfg = some w') :
    w'.RefInv ∧ KeepsUsed w.worker w'.worker := by
  obtain ⟨r, upd, rest, worker, hphase, happlying, happly, rfl⟩ := apply_cases hrun
  obtain ⟨hexact, hp, hjoins⟩ := Promised.connect_all h.exact (h.first hphase happlying)
    (Subscriber.applyUpdate_cases happly)
  exact ⟨⟨hexact, h.bundles.sublist hjoins.kept.bundleNames, hp⟩, hjoins.keeps⟩

theorem RefInv.destroy (h : w.RefInv) {i : Nat} (hrun : w.destroy i = some w') :
    w'.RefInv ∧ Stays w.worker.flows w'.worker.flows := by
  obtain ⟨ds, d, _, _, rfl⟩ := destroy_cases hrun
  refine ⟨⟨h.exact, h.bundles, ?_⟩, .refl _⟩
  rw [jobs, sent]
  dsimp only
  cases ds.eraseIdx i <;> exact .nothing _

/-! ## Every run -/

theorem RefInv.step (h : w.RefInv) {e : RxEvent} (hrun : w.step cfg e = some w') :
    w'.RefInv ∧ KeepsUsed w.worker w'.worker := by
  have hkeeps : w'.RefInv ∧ Stays w.worker.flows w'.worker.flows →
      w'.RefInv ∧ KeepsUsed w.worker w'.worker := fun hw => ⟨hw.1, hw.2.keepsUsed⟩
  cases step_case hrun with
  | quiet hquiet => exact hkeeps (h.quiet hquiet)
  | handle hidle hrun =>
      obtain ⟨hjobs, hsent⟩ := idle_promises hidle
      exact hkeeps (h.handle hjobs hsent hrun)
  | resolve _ hrun => exact h.resolve hrun
  | job hrun => exact hkeeps (h.job hrun)
  | apply hrun => exact h.apply hrun
  | scan _ hrun => exact hkeeps (h.scan hrun)
  | destroy hrun => exact hkeeps (h.destroy hrun)
  | task hrun =>
      obtain ⟨t, _, rfl⟩ := task_cases hrun
      exact hkeeps ⟨⟨h.exact.of_eq rfl rfl, h.bundles, h.promises.of_kept (Stays.refl _).kept rfl⟩,
        .refl _⟩
  | receiver _ => exact hkeeps ⟨⟨h.exact, h.bundles, h.promises⟩, .refl _⟩

/-! ## From the start -/

theorem loadState_exact {cfg : SubscriberConfig} {saved : List Subscriber.SavedChannelState}
    {s s' : Subscriber} (h : RefcountsExact s) (hrun : s.loadState cfg saved = some s') :
    RefcountsExact s' ∧ Stays s.flows s'.flows := by
  induction saved generalizing s with
  | nil =>
      obtain rfl := Option.some.inj hrun
      exact ⟨h, .refl _⟩
  | cons chst saved ih =>
      rw [Subscriber.loadState] at hrun
      dsimp only at hrun
      split at hrun
      · exact ih h hrun
      obtain ⟨s₁, hsub, hrun⟩ := Option.bind_eq_some_iff.mp hrun
      have hinfo : RefcountsExact { s with
          subscriptionsInfo := s.subscriptionsInfo.set
            (chst.localChannelId.setWidth 64 - 1 : Usize).toNat
            (some ⟨chst.txChannelName, chst.txHostname, .unresolved⟩) } := h.of_eq rfl rfl
      obtain ⟨h₁, hstays⟩ := hinfo.subscribe hsub
      obtain ⟨h', hstays'⟩ := ih h₁ hrun
      exact ⟨h', hstays.trans hstays'⟩

theorem refInv_start {cfg : SubscriberConfig} {n : Nat}
    {saved : List Subscriber.SavedChannelState} {worker : Subscriber}
    (hload : (Subscriber.new n).loadState cfg saved = some worker) (receiver : FlowsReceiver) :
    (start worker receiver).RefInv := by
  have hnone : ∀ chi, remoteOf (Subscriber.new n).channels chi = none := by
    intro chi
    rw [remoteOf, Subscriber.new, List.getElem?_replicate]
    split <;> rfl
  have hnew : RefcountsExact (Subscriber.new n) := by
    refine ⟨fun f flow hf => (by cases hf), fun chi r hr => ?_, fun chi r hr => ?_⟩
    · rw [hnone] at hr
      cases hr
    · rw [hnone] at hr
      cases hr
  obtain ⟨hexact, hstays⟩ := loadState_exact hnew hload
  exact ⟨hexact, List.nodup_nil.sublist hstays.kept.bundleNames, .nothing worker⟩

theorem reaches_refInv {cfg : RxConfig} {n : Nat} {saved : List Subscriber.SavedChannelState}
    {worker : Subscriber}
    (hload : (Subscriber.new n).loadState cfg.toSubscriberConfig saved = some worker)
    {receiver : FlowsReceiver} {w : RxWorld}
    (h : Reaches cfg (fun _ _ => True) (start worker receiver) w) : w.RefInv := by
  induction h with
  | refl => exact refInv_start hload receiver
  | tail _ hstep ih =>
      obtain ⟨e, _, hrun⟩ := hstep
      exact (ih.step hrun).1

/-- The counts are exact, slots are shared only for one transmitter channel,
and re-assigned only when nobody uses them. -/
structure SlotsRight (cfg : RxConfig) (w : RxWorld) : Prop where
  exact : RefcountsExact w.worker
  shared : ∀ chi chi' r r', remoteOf w.worker.channels chi = some r →
    remoteOf w.worker.channels chi' = some r' → Compatible w.worker.flows r r'
  reassigned : ∀ e w', w.step cfg e = some w' → KeepsUsed w.worker w'.worker

theorem RefInv.right (h : w.RefInv) (cfg : RxConfig) : w.SlotsRight cfg where
  exact := h.exact
  shared chi chi' r r' hr hr' := (h.exact.carries chi r hr).compatible (h.exact.carries chi' r' hr')
  reassigned _ _ hrun := (h.step hrun).2

end RxWorld

open RxWorld in
/-- The reference counts are right in every run. -/
theorem refcounts_exact (cfg : RxConfig) (n : Nat) (saved : List Subscriber.SavedChannelState)
    (worker : Subscriber)
    (hload : (Subscriber.new n).loadState cfg.toSubscriberConfig saved = some worker)
    (receiver : FlowsReceiver) (w : RxWorld)
    (h : Reaches cfg (fun _ _ => True) (start worker receiver) w) : w.SlotsRight cfg :=
  (reaches_refInv hload h).right cfg

/-- Two channels subscribed to `a` at host `h` from the saved state. -/
def twoSaved : List Subscriber.SavedChannelState := [⟨1, "a", "h"⟩, ⟨2, "a", "h"⟩]

/-- Both are connected through one flow. -/
def connectBoth : List RxEvent :=
  [.resolve sampleAnswers, .job 0 (.ok [1, 2, 3, 4, 5, 6]), .receive 1 (some 0), .apply]

open RxWorld in
/-- Both channels use one slot, which counts two. -/
theorem refcounts_exact_aliases :
    ∃ worker w, (Subscriber.new 2).loadState sampleRxConfig.toSubscriberConfig twoSaved = some worker ∧
      runWith sampleRxConfig (fun _ _ => True) (start worker (.start 2 none)) connectBoth = some w ∧
      slotUsers w.worker.channels 0 0 = 2 := by
  obtain ⟨worker, hload⟩ := Option.isSome_iff_exists.mp (show ((Subscriber.new 2).loadState
    sampleRxConfig.toSubscriberConfig twoSaved).isSome by decide)
  have hruns : (((Subscriber.new 2).loadState sampleRxConfig.toSubscriberConfig twoSaved).bind
      fun worker => (runWith sampleRxConfig (fun _ _ => True) (start worker (.start 2 none))
        connectBoth).map fun w => (w.worker.flows[0]?.join).map RxFlow.channelsRefcount) =
      some (some [2, 0]) := by decide
  rw [hload, Option.bind_some] at hruns
  obtain ⟨w, hw, hcounts⟩ := Option.map_eq_some_iff.mp hruns
  obtain ⟨flow, hflow, hrc⟩ := Option.map_eq_some_iff.mp hcounts
  have hright := refcounts_exact sampleRxConfig 2 twoSaved worker hload (.start 2 none) w
    (reaches_of_runWith hw)
  have hcount := hright.exact.counts 0 flow hflow 0 2 (by rw [hrc]; rfl)
  exact ⟨worker, w, hload, hw, by omega⟩

end Inferno
