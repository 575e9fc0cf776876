import Mathlib.Data.List.Flatten
import Inferno.ResolvePlan

/-!
# No channel is planned for twice

Every channel that is needed is in one group of aliases, and every group is in
at most one update of a plan: while the plan is made, a channel is either still
waiting, for a server or a bundle, or first in an update that there is.
-/

namespace Inferno

open Partial

/-! ## Groups of aliases -/

/-- Each group is named by its first channel, and no channel is in two. -/
structure Aliases.Grouped (aliases : Aliases) : Prop where
  head : ∀ k l, aliases k = some l → l.head? = some k
  nodup : ∀ k l, aliases k = some l → l.Nodup
  apart : ∀ j k l m i, aliases j = some l → aliases k = some m → i ∈ l → i ∈ m → j = k

theorem Aliases.push_self (aliases : Aliases) (i ch : Nat) :
    aliases.push i ch i = some ((aliases i).getD [] ++ [ch]) := Function.update_self _ _ _

theorem Aliases.push_of_ne (aliases : Aliases) {i k : Nat} (ch : Nat) (h : k ≠ i) :
    aliases.push i ch k = aliases k := Function.update_of_ne h _ _

/-- Who is in a group after a push. -/
theorem Aliases.mem_push {aliases : Aliases} {i ch k j : Nat} {l : List Nat}
    (hl : aliases.push i ch k = some l) (hj : j ∈ l) :
    (j = ch ∧ k = i) ∨ ∃ m, aliases k = some m ∧ j ∈ m := by
  by_cases hk : k = i
  · rw [hk, push_self] at hl
    obtain rfl := Option.some.inj hl
    rcases List.mem_append.mp hj with hj | hj
    · cases hi : aliases i with
      | none =>
          rw [hi] at hj
          cases hj
      | some m =>
          rw [hi] at hj
          exact .inr ⟨m, hk ▸ hi, hj⟩
    · exact .inl ⟨List.mem_singleton.mp hj, hk⟩
  · rw [push_of_ne _ _ hk] at hl
    exact .inr ⟨l, hl, hj⟩

theorem Aliases.Grouped.push {aliases : Aliases} (h : aliases.Grouped) {i ch : Nat}
    (hnew : ∀ k l, aliases k = some l → ch ∉ l) (hi : (aliases i).isSome ∨ i = ch) :
    (aliases.push i ch).Grouped := by
  have hgroup : ∀ k l, aliases.push i ch k = some l →
      (k = i ∧ l = (aliases i).getD [] ++ [ch]) ∨ (k ≠ i ∧ aliases k = some l) := by
    intro k l hl
    by_cases hk : k = i
    · rw [hk, push_self] at hl
      exact .inl ⟨hk, (Option.some.inj hl).symm⟩
    · rw [push_of_ne _ _ hk] at hl
      exact .inr ⟨hk, hl⟩
  refine ⟨fun k l hl => ?_, fun k l hl => ?_, fun j k l m x hl hm hxl hxm => ?_⟩
  · rcases hgroup k l hl with ⟨rfl, rfl⟩ | ⟨_, hl⟩
    · cases hk : aliases k with
      | none =>
          rcases hi with hi | rfl
          · rw [hk] at hi
            cases hi
          · rfl
      | some m =>
          rw [Option.getD_some, List.head?_append, h.head k m hk]
          rfl
    · exact h.head k l hl
  · rcases hgroup k l hl with ⟨rfl, rfl⟩ | ⟨_, hl⟩
    · cases hk : aliases k with
      | none => exact List.nodup_singleton ch
      | some m =>
          rw [Option.getD_some]
          exact (h.nodup k m hk).append (List.nodup_singleton ch)
            (List.disjoint_singleton.mpr (hnew k m hk))
    · exact h.nodup k l hl
  · rcases mem_push hl hxl with ⟨rfl, rfl⟩ | ⟨l', hl', hxl'⟩
    · rcases mem_push hm hxm with ⟨_, rfl⟩ | ⟨m', hm', hxm'⟩
      · rfl
      · exact absurd hxm' (hnew k m' hm')
    · rcases mem_push hm hxm with ⟨rfl, rfl⟩ | ⟨m', hm', hxm'⟩
      · exact absurd hxl' (hnew j l' hl')
      · exact h.apart j k l' m' x hl' hm' hxl' hxm'

/-- Dealiasing makes groups, and keeps their first channels. -/
theorem dealias_grouped {channels : List (Option ChannelSubscription)} {l : List Nat}
    {aliasMap : String × String → Option Nat} {aliases aliases' : Aliases} {kept : List Nat}
    (h : dealias channels l aliasMap aliases = some (kept, aliases')) (hl : l.Nodup)
    (hnew : ∀ k m, aliases k = some m → ∀ i ∈ m, i ∉ l)
    (hmap : ∀ key e, aliasMap key = some e → (aliases e).isSome) (hg : aliases.Grouped) :
    aliases'.Grouped ∧ kept.Sublist l := by
  induction l generalizing aliasMap aliases kept with
  | nil =>
      cases h
      exact ⟨hg, List.Sublist.refl _⟩
  | cons ch rest ih =>
      obtain ⟨hch, hrest⟩ := List.nodup_cons.mp hl
      have hnewch : ∀ k m, aliases k = some m → ch ∉ m := fun k m hm hmem =>
        hnew k m hm ch hmem List.mem_cons_self
      have hpushed : ∀ i k m, aliases.push i ch k = some m → ∀ j ∈ m, j ∉ rest := by
        intro i k m hm j hj hmem
        rcases Aliases.mem_push hm hj with ⟨rfl, _⟩ | ⟨m', hm', hj'⟩
        · exact hch hmem
        · exact hnew k m' hm' j hj' (List.mem_cons_of_mem _ hmem)
      have hsome : ∀ i e, (aliases e).isSome → (aliases.push i ch e).isSome := by
        intro i e he
        by_cases hei : e = i
        · rw [hei, Aliases.push_self]
          rfl
        · rw [Aliases.push_of_ne _ _ hei]
          exact he
      rw [dealias] at h
      obtain ⟨key, _, h⟩ := Option.bind_eq_some_iff.mp h
      cases hkey : aliasMap key with
      | some existing =>
          rw [hkey] at h
          obtain ⟨hg', hsub⟩ := ih h hrest (hpushed existing)
            (fun key e he => hsome existing e (hmap key e he))
            (hg.push hnewch (.inl (hmap key existing hkey)))
          exact ⟨hg', hsub.cons ch⟩
      | none =>
          rw [hkey] at h
          dsimp only at h
          split at h
          · cases h
          · obtain ⟨⟨kept', aliases''⟩, hrec, h⟩ := Option.bind_eq_some_iff.mp h
            cases h
            have hmap' : ∀ key' e, Function.update aliasMap key (some ch) key' = some e →
                (aliases.push ch ch e).isSome := by
              intro key' e he
              by_cases hk : key' = key
              · rw [hk, Function.update_self] at he
                cases he
                rw [Aliases.push_self]
                rfl
              · rw [Function.update_of_ne hk] at he
                exact hsome ch e (hmap key' e he)
            obtain ⟨hg', hsub⟩ := ih hrec hrest (hpushed ch) hmap' (hg.push hnewch (.inr rfl))
            exact ⟨hg', hsub.cons_cons ch⟩

/-! ## The first channels of updates -/

def firsts (us : List ChannelSourceUpdate) : List Nat :=
  us.filterMap fun u => u.localChannelIndices.head?

theorem firsts_append (us vs : List ChannelSourceUpdate) : firsts (us ++ vs) = firsts us ++ firsts vs :=
  List.filterMap_append

theorem firsts_cons {aliases : Aliases} (hg : aliases.Grouped) {lci : Nat}
    {u : ChannelSourceUpdate} (hu : aliases lci = some u.localChannelIndices)
    (us : List ChannelSourceUpdate) : firsts (u :: us) = lci :: firsts us :=
  List.filterMap_cons_some (hg.head lci _ hu)

/-- Updates for groups that differ are for channels that differ. -/
theorem Aliases.Grouped.flatMap_nodup {aliases : Aliases} (hg : aliases.Grouped)
    {us : List ChannelSourceUpdate} (hnamed : Named aliases us) (h : (firsts us).Nodup) :
    (us.flatMap ChannelSourceUpdate.localChannelIndices).Nodup := by
  induction us with
  | nil => exact List.nodup_nil
  | cons u us ih =>
      obtain ⟨lci, hlci⟩ := hnamed u List.mem_cons_self
      rw [firsts_cons hg hlci] at h
      obtain ⟨hnot, hrest⟩ := List.nodup_cons.mp h
      have hnamed' : Named aliases us := fun v hv => hnamed v (List.mem_cons_of_mem _ hv)
      rw [List.flatMap_cons]
      refine (hg.nodup lci _ hlci).append (ih hnamed' hrest) fun i hi hi' => ?_
      obtain ⟨v, hv, hiv⟩ := List.mem_flatMap.mp hi'
      obtain ⟨lci', hlci'⟩ := hnamed' v hv
      obtain rfl := hg.apart lci lci' _ _ i hlci hlci' hi hiv
      exact hnot (List.mem_filterMap.mpr ⟨v, hv, hg.head lci _ hlci'⟩)

section

variable {aliases : Aliases} (hg : aliases.Grouped)

include hg

theorem Serves.firsts {Q : ChannelOtherEnd → Prop} {served : List Nat}
    {us : List ChannelSourceUpdate} (h : Serves aliases Q served us) : firsts us = served := by
  induction h with
  | nil => rfl
  | cons hu _ ih => rw [firsts_cons hg hu.1, ih]

/-- The updates of the flows that change. -/
def changedUpdates (changes : FlowChanges) : List ChannelSourceUpdate :=
  changes.entries.flatMap fun e => e.2.2

def ChannelSourceUpdate.slot (u : ChannelSourceUpdate) : Nat × Nat :=
  (u.remote.localFlowIndex, u.remote.channelInFlow)

/-- The channels up to some point are assigned the slots in order, the others
are left. -/
theorem assignFree_spec {flows : List (Option RxFlow)} {l : List (Nat × AdvertisedChannel)}
    {free : List (Nat × Nat)} {changes changes' : FlowChanges} {left : List Nat}
    (h : assignFree aliases flows l free changes = some (left, changes')) :
    ∃ assigned, (changedUpdates changes').Perm (changedUpdates changes ++ assigned) ∧
      firsts assigned ++ left = l.map Prod.fst ∧
      assigned.map ChannelSourceUpdate.slot <+: free := by
  induction l generalizing free changes left with
  | nil =>
      cases h
      exact ⟨[], by rw [List.append_nil], rfl, List.nil_prefix⟩
  | cons e rest ih =>
      obtain ⟨lci, advch⟩ := e
      cases free with
      | nil =>
          rw [assignFree] at h
          obtain ⟨⟨left', changes''⟩, hrec, h⟩ := Option.bind_eq_some_iff.mp h
          cases h
          obtain ⟨assigned, hperm, hfirsts, hslots⟩ := ih hrec
          obtain rfl := List.map_eq_nil_iff.mp (List.prefix_nil.mp hslots)
          refine ⟨[], hperm, ?_, List.nil_prefix⟩
          rw [List.map_cons, ← hfirsts]
          rfl
      | cons slot free =>
          obtain ⟨flowIndex, chInFlow⟩ := slot
          rw [assignFree] at h
          obtain ⟨flow, _, h⟩ := Option.bind_eq_some_iff.mp h
          obtain ⟨indices, hindices, h⟩ := Option.bind_eq_some_iff.mp h
          dsimp only at h
          split at h
          swap
          · cases h
          obtain ⟨assigned, hperm, hfirsts, hslots⟩ := ih h
          refine ⟨⟨indices, ⟨flowIndex, chInFlow, advch.txChannelId⟩⟩ :: assigned, ?_, ?_, ?_⟩
          · refine hperm.trans ?_
            rw [List.append_cons]
            refine List.Perm.append_right _ ?_
            exact changes.alter_flatMap flowIndex rfl fun v => rfl
          · rw [firsts_cons hg hindices, List.cons_append, hfirsts, List.map_cons]
          · rw [List.map_cons]
            exact List.cons_prefix_cons.mpr ⟨rfl, hslots⟩

end

/-! ## Plans as lists of updates -/

/-- The bundle that a flow receives. -/
def RxFlow.bundle (flow : RxFlow) : Option String :=
  match flow.source with
  | .unicast .. => none
  | .multicast name => some name

namespace Plan

def jobs (p : Plan) : List Job := p.futures.entries.flatMap Prod.snd

theorem mem_jobs {p : Plan} {job : Job} :
    job ∈ p.jobs ↔ ∃ e ∈ p.futures.entries, job ∈ e.2 := List.mem_flatMap

/-- All updates of a plan. -/
def updates (p : Plan) : List ChannelSourceUpdate := p.resolved ++ p.jobs.flatMap Job.updates

theorem pushFuture_jobs (p : Plan) (addr : SocketAddr) (job : Job) :
    (p.pushFuture addr job).jobs.Perm (p.jobs ++ [job]) :=
  p.futures.alter_flatMap addr rfl fun _ => rfl

/-- `FlowsControlClient::update_flow`, in a future. -/
def IsUpdate (job : Job) : Prop :=
  ∃ addr dbcp1 handle txChannels updates, job = .updateFlow addr dbcp1 handle txChannels updates

/-- What is done about the free slots of a server: nothing, or channels that
wait for it are assigned some of them, and futures replace those there were. -/
theorem useFree_cases {aliases : Aliases} {p p' : Plan} {addr : SocketAddr} {channels : ChannelMap}
    (h : p.useFree aliases addr channels = some p') :
    p' = p ∨ ∃ freeSlots left changes js kept, p.freeSlots.get? addr = some freeSlots ∧
      assignFree aliases p.flows channels.entries
        (freeSlots.entries.flatMap fun e => e.2.map fun c => (e.1, c)) .empty =
          some (left, changes) ∧
      js.flatMap Job.updates = changedUpdates changes ∧ (∀ job ∈ js, IsUpdate job) ∧
      kept.Sublist p.jobs ∧ p'.jobs.Perm (kept ++ js) ∧
      p' = { p with
        channelsPerServer := p.channelsPerServer.insert addr
          (channels.filter fun lci _ => left.contains lci)
        futures := p'.futures } := by
  unfold Plan.useFree at h
  split at h
  · exact .inl (Option.some.inj h).symm
  split at h
  · exact .inl (Option.some.inj h).symm
  next freeSlots hfree =>
  obtain ⟨⟨left, changes⟩, hassign, h⟩ := Option.bind_eq_some_iff.mp h
  obtain ⟨js, hjs, h⟩ := Option.bind_eq_some_iff.mp h
  obtain rfl := Option.some.inj h
  obtain ⟨l₁, l₂, hold, hnew⟩ := p.futures.alter_split addr fun _ => js
  refine .inr ⟨freeSlots, left, changes, js, l₁.flatMap Prod.snd ++ l₂.flatMap Prod.snd, hfree,
    hassign, flatMap_of_mapM (fun _ _ hjob => updateJob_updates hjob) hjs, fun job hjob => ?_, ?_,
    ?_, rfl⟩
  · obtain ⟨e, _, he⟩ := mem_of_mapM hjs job hjob
    unfold updateJob at he
    split at he
    · cases he
      exact ⟨_, _, _, _, _, rfl⟩
    · cases he
  · rw [jobs, hold, List.flatMap_append, List.flatMap_append, List.append_assoc]
    exact (List.sublist_append_right _ _).append_left _
  · show ((p.futures.alter addr fun _ => js).entries.flatMap Prod.snd).Perm _
    rw [hnew, List.flatMap_append, List.flatMap_cons, List.append_assoc]
    exact List.perm_append_comm.append_left _

theorem Named.updates {aliases : Aliases} {p : Plan} (h : p.Named aliases) :
    Inferno.Named aliases p.updates := by
  refine h.resolved.append fun upd hupd => ?_
  obtain ⟨job, hjob, hupd⟩ := List.mem_flatMap.mp hupd
  obtain ⟨e, he, hjob⟩ := List.mem_flatMap.mp hjob
  exact h.futures e he job hjob upd hupd

/-! ## The ledger -/

/-- The channels that wait for a server. -/
def serverWait (p : Plan) : List Nat :=
  p.channelsPerServer.entries.flatMap fun e => e.2.entries.map Prod.fst

/-- The channels that wait for a bundle. -/
def waitingFor (p : Plan) (name : String) : List Nat :=
  ((p.channelsPerBundle.get? name).getD .empty).entries.map Prod.fst

/-- No channel is first in two updates, waits twice, or does both. -/
def Ledger (p : Plan) (wait : List Nat) : Prop :=
  ∀ x, (firsts p.updates).count x + wait.count x ≤ 1

theorem Ledger.nodup {p : Plan} {wait : List Nat} (h : p.Ledger wait) :
    (firsts p.updates).Nodup :=
  List.nodup_iff_count_le_one.mpr fun x => Nat.le_trans (Nat.le_add_right _ _) (h x)

theorem firsts_count_le {us vs : List ChannelSourceUpdate} (h : us.Sublist vs) (x : Nat) :
    (firsts us).count x ≤ (firsts vs).count x := (h.filterMap _).count_le x

theorem firsts_count_eq {us vs : List ChannelSourceUpdate} (h : us.Perm vs) (x : Nat) :
    (firsts us).count x = (firsts vs).count x := (h.filterMap _).count_eq x

/-- The keys of a map with an entry more, or changed. -/
theorem insert_keys_count (m : ChannelMap) (lci : Nat) (advch : AdvertisedChannel) (x : Nat) :
    ((m.insert lci advch).entries.map Prod.fst).count x ≤
      (m.entries.map Prod.fst).count x + [lci].count x := by
  obtain ⟨l₁, l₂, hm, halter⟩ := m.alter_split lci fun _ => advch
  rw [SortedMap.insert, halter, hm]
  simp only [List.map_append, List.map_cons, List.count_append, List.count_cons, List.count_nil]
  omega

/-- An answer makes its channel wait, at one place. -/
theorem addAnswer_wait (p : Plan) (lci : Nat) (answer : Option AdvertisedChannel) (x : Nat) :
    (p.addAnswer lci answer).serverWait.count x +
        ((p.addAnswer lci answer).channelsPerBundle.entries.flatMap
          fun e => e.2.entries.map Prod.fst).count x ≤
      p.serverWait.count x + (p.channelsPerBundle.entries.flatMap
          fun e => e.2.entries.map Prod.fst).count x + [lci].count x := by
  have halter : ∀ {κ : Type} [LinearOrder κ] (m : SortedMap κ ChannelMap) (k : κ)
      (advch : AdvertisedChannel),
      ((m.alter k fun m => (m.getD .empty).insert lci advch).entries.flatMap
          fun e => e.2.entries.map Prod.fst).count x ≤
        (m.entries.flatMap fun e => e.2.entries.map Prod.fst).count x + [lci].count x := by
    intro κ _ m k advch
    obtain ⟨l₁, l₂, hm, halter⟩ := m.alter_split k fun m => (m.getD .empty).insert lci advch
    rw [halter, hm]
    have hkeys := insert_keys_count ((m.get? k).getD .empty) lci advch x
    cases hk : m.get? k with
    | none =>
        rw [hk] at hkeys
        simp only [Option.map_none, Option.toList_none, List.append_nil, List.flatMap_append,
          List.flatMap_cons, List.count_append, Option.getD_none, SortedMap.empty,
          List.map_nil, List.count_nil] at hkeys ⊢
        omega
    | some v =>
        rw [hk] at hkeys
        simp only [Option.map_some, Option.toList_some, List.flatMap_append, List.flatMap_cons,
          List.flatMap_nil, List.append_nil, List.count_append, Option.getD_some] at hkeys ⊢
        omega
  cases answer with
  | none => exact Nat.le_add_right _ _
  | some advserv =>
      rw [addAnswer]
      cases advserv.multicast with
      | none =>
          have h := halter p.channelsPerServer advserv.addr advserv
          simp only [serverWait]
          omega
      | some mcast =>
          have h := halter p.channelsPerBundle (bundleName mcast) advserv
          simp only [serverWait]
          omega

/-- What waits for the bundles that there are entries for. -/
theorem waitingFor_keys (p : Plan) :
    (p.channelsPerBundle.entries.map Prod.fst).flatMap p.waitingFor =
      p.channelsPerBundle.entries.flatMap fun e => e.2.entries.map Prod.fst := by
  rw [List.flatMap_map]
  refine List.flatMap_congr fun e he => ?_
  obtain ⟨name, channels⟩ := e
  rw [waitingFor, SortedMap.get?_of_mem he]
  rfl

theorem begin_ledger {env : ResolveEnv} {flows : List (Option RxFlow)} {needed : List Nat}
    {resolved : List ChannelSourceUpdate} (h : (firsts resolved ++ needed).Nodup) :
    (Plan.begin env flows needed resolved).Ledger
      ((Plan.begin env flows needed resolved).serverWait ++
        ((Plan.begin env flows needed resolved).channelsPerBundle.entries.map Prod.fst).flatMap
          (Plan.begin env flows needed resolved).waitingFor) := by
  intro x
  rw [waitingFor_keys]
  have hupdates : (Plan.begin env flows needed resolved).updates = resolved := by
    have hfold : ∀ (l : List Nat) (p : Plan),
        (l.foldl (fun p lci => p.addAnswer lci (env.queryChan lci)) p).resolved = p.resolved ∧
        (l.foldl (fun p lci => p.addAnswer lci (env.queryChan lci)) p).futures = p.futures := by
      intro l p
      refine foldl_inv (I := fun q : Plan => q.resolved = p.resolved ∧ q.futures = p.futures)
        (fun q lci _ hq => ?_) ⟨rfl, rfl⟩
      unfold addAnswer
      split
      · exact hq
      split
      · exact hq
      · exact hq
    obtain ⟨hr, hf⟩ := hfold needed ⟨flows, .empty, .empty, .empty, .empty, resolved, .empty⟩
    rw [updates, jobs, Plan.begin]
    dsimp only
    rw [hr, hf]
    exact List.append_nil _
  have hwait : ∀ (l : List Nat) (p : Plan),
      (l.foldl (fun p lci => p.addAnswer lci (env.queryChan lci)) p).serverWait.count x +
        ((l.foldl (fun p lci => p.addAnswer lci (env.queryChan lci)) p).channelsPerBundle.entries.flatMap
          fun e => e.2.entries.map Prod.fst).count x ≤
      p.serverWait.count x + (p.channelsPerBundle.entries.flatMap
          fun e => e.2.entries.map Prod.fst).count x + l.count x := by
    intro l
    induction l with
    | nil => exact fun p => Nat.le_refl _
    | cons lci l ih =>
        intro p
        have h1 := addAnswer_wait p lci (env.queryChan lci) x
        have h2 := ih (p.addAnswer lci (env.queryChan lci))
        rw [List.foldl_cons, List.count_cons]
        rw [List.count_singleton] at h1
        omega
  have hall := hwait needed ⟨flows, .empty, .empty, .empty, .empty, resolved, .empty⟩
  have hone := List.nodup_iff_count_le_one.mp h x
  rw [List.count_append] at hone
  have hgood : (Plan.begin env flows needed resolved).serverWait.count x ≤
      (needed.foldl (fun p lci => p.addAnswer lci (env.queryChan lci))
        (⟨flows, .empty, .empty, .empty, .empty, resolved, .empty⟩ : Plan)).serverWait.count x := by
    refine (List.Sublist.flatMap ?_ _).count_le x
    exact List.filter_sublist
  have hbundle : (Plan.begin env flows needed resolved).channelsPerBundle =
      (needed.foldl (fun p lci => p.addAnswer lci (env.queryChan lci))
        (⟨flows, .empty, .empty, .empty, .empty, resolved, .empty⟩ : Plan)).channelsPerBundle := rfl
  have hnil : serverWait ⟨flows, .empty, .empty, .empty, .empty, resolved, .empty⟩ = [] := rfl
  rw [hnil] at hall
  rw [hupdates, List.count_append, hbundle]
  simp only [SortedMap.empty, List.flatMap_nil, List.count_nil] at hall hgood ⊢
  omega

/-- The bundles that wait still, when a flow has been looked at. -/
def stillWaiting (names : List String) (flow : RxFlow) : List String :=
  match flow.bundle with
  | some name => names.erase name
  | none => names

theorem firstIndices_eq {us : List ChannelSourceUpdate} {found : List Nat}
    (h : firstIndices us = some found) : firsts us = found := by
  have hmap := flatMap_of_mapM (p := fun n => [n])
    (q := fun u : ChannelSourceUpdate => u.localChannelIndices.head?.toList)
    (fun u n hn => by rw [hn]; rfl) h
  rw [List.flatMap_singleton'] at hmap
  rw [hmap, firsts]
  clear h hmap
  induction us with
  | nil => rfl
  | cons u us ih =>
      rw [List.flatMap_cons, List.filterMap_cons, ih]
      cases u.localChannelIndices.head? <;> rfl

/-- Keys that are found are not among the others. -/
theorem filter_keys_count (m : ChannelMap) {found : List Nat}
    (hfound : found.Sublist (m.entries.map Prod.fst)) (x : Nat) :
    found.count x + ((m.filter fun lci _ => !found.contains lci).entries.map Prod.fst).count x ≤
      (m.entries.map Prod.fst).count x := by
  have hsub : ((m.filter fun lci _ => !found.contains lci).entries.map Prod.fst).Sublist
      (m.entries.map Prod.fst) := (List.filter_sublist).map _
  by_cases hx : x ∈ found
  · have hnot : x ∉ (m.filter fun lci _ => !found.contains lci).entries.map Prod.fst := by
      intro hmem
      obtain ⟨e, he, rfl⟩ := List.mem_map.mp hmem
      have hfilter := (List.mem_filter.mp he).2
      simp only [Bool.not_eq_true', List.contains_eq_mem, decide_eq_false_iff_not] at hfilter
      exact hfilter hx
    rw [List.count_eq_zero.mpr hnot, Nat.add_zero]
    exact hfound.count_le x
  · rw [List.count_eq_zero.mpr hx, Nat.zero_add]
    exact hsub.count_le x

theorem Ledger.of_le {p p' : Plan} {wait wait' : List Nat} (h : p.Ledger wait)
    (hle : ∀ x, (firsts p'.updates).count x + wait'.count x ≤
      (firsts p.updates).count x + wait.count x) : p'.Ledger wait' :=
  fun x => Nat.le_trans (hle x) (h x)

theorem Ledger.useFlow {aliases : Aliases} (hg : aliases.Grouped) {p p' : Plan}
    {names : List String} (h : p.Ledger (p.serverWait ++ names.flatMap p.waitingFor))
    {flowIndex : Nat} {flow : RxFlow} (hrun : p.useFlow aliases flowIndex flow = some p')
    (hname : ∀ name ∈ flow.bundle, name ∈ names ∨ p.channelsPerBundle.get? name = none) :
    p'.channelsPerBundle = p.channelsPerBundle ∧
      p'.Ledger (p'.serverWait ++ (stillWaiting names flow).flatMap p'.waitingFor) ∧
      (∀ e ∈ p'.bundles.entries, e ∈ p.bundles.entries ∧
        (flow.bundle = some e.1 → p.channelsPerBundle.get? e.1 = none)) := by
  have hsub : (stillWaiting names flow).Sublist names := by
    unfold stillWaiting
    split
    · exact List.erase_sublist
    · exact .refl _
  have hsame : p.Ledger (p.serverWait ++ (stillWaiting names flow).flatMap p.waitingFor) := by
    refine h.of_le fun x => ?_
    have hle := (hsub.flatMap p.waitingFor).count_le x
    rw [List.count_append, List.count_append]
    omega
  cases used_of_useFlow hrun with
  | unasked hbundle =>
      refine ⟨rfl, hsame, fun e he => ⟨he, fun hb => hbundle e.1 ?_⟩⟩
      unfold RxFlow.bundle at hb
      split at hb
      · cases hb
      · next name hsource => rw [hsource, Option.some.inj hb]
  | @unicast addr dbcp1 handle channels updates found hsource hget hfind hfound =>
      have hbundle : flow.bundle = none := by rw [RxFlow.bundle, hsource]
      refine ⟨rfl, hsame.of_le fun x => ?_,
        fun e he => ⟨he, fun hb => by rw [hbundle] at hb; cases hb⟩⟩
      obtain ⟨rest, hold, hnew⟩ := p.channelsPerServer.insert_flatMap addr
        (channels.filter fun lci _ => !found.contains lci) fun e => e.2.entries.map Prod.fst
      rw [hget] at hold
      obtain ⟨served, hfirsts, hserves⟩ := findInFlow_serves hfind
      rw [← hserves.firsts hg, firstIndices_eq hfound] at hfirsts
      have hkeys := filter_keys_count channels hfirsts x
      have hold := hold.count_eq x
      have hnew := hnew.count_eq x
      simp only [Option.toList_some, List.flatMap_singleton, List.count_append] at hold hnew
      simp only [Plan.updates, jobs, firsts_append, List.count_append, serverWait,
        firstIndices_eq hfound]
      show _ + (_ + ((stillWaiting names flow).flatMap p.waitingFor).count x) ≤ _
      omega
  | @multicast name channels updates hsource hget hupdates =>
      have hbundle : flow.bundle = some name := by rw [RxFlow.bundle, hsource]
      refine ⟨rfl, h.of_le fun x => ?_, fun e he => ?_⟩
      · have hmem : name ∈ names := by
          rcases hname name hbundle with hmem | hnone
          · exact hmem
          · rw [hget] at hnone
            cases hnone
        have hperm := ((List.perm_cons_erase hmem).flatMap_right p.waitingFor).count_eq x
        have hfirsts := (bundleUpdates_serves hupdates).firsts hg
        rw [List.flatMap_cons, waitingFor, hget] at hperm
        simp only [Option.getD_some, List.count_append] at hperm
        simp only [Plan.updates, jobs, firsts_append, List.count_append, serverWait,
          stillWaiting, hbundle, hfirsts]
        show _ + (_ + ((names.erase name).flatMap p.waitingFor).count x) ≤ _
        omega
      · obtain ⟨he, hne⟩ := List.mem_filter.mp he
        refine ⟨he, fun hb => ?_⟩
        rw [hbundle] at hb
        cases hb
        simp at hne

/-- The bundles that flows receive. -/
def bundleNames (flows : List (Option RxFlow)) : List String :=
  flows.filterMap fun o => o.bind RxFlow.bundle

theorem Ledger.useFlows {aliases : Aliases} (hg : aliases.Grouped) {flows : List (Option RxFlow)}
    {p p' : Plan} {names : List String} (h : p.Ledger (p.serverWait ++ names.flatMap p.waitingFor))
    {flowIndex : Nat} (hrun : p.useFlows aliases flowIndex flows = some p')
    (hnodup : (bundleNames flows).Nodup)
    (hnames : ∀ name ∈ bundleNames flows, name ∈ names ∨ p.channelsPerBundle.get? name = none)
    (hbundles : ∀ e ∈ p.bundles.entries,
      e.1 ∈ names ∧ p.channelsPerBundle.get? e.1 ≠ none) :
    p'.channelsPerBundle = p.channelsPerBundle ∧ ∃ names' : List String,
      p'.Ledger (p'.serverWait ++ names'.flatMap p'.waitingFor) ∧
      ∀ e ∈ p'.bundles.entries, e ∈ p.bundles.entries ∧ e.1 ∈ names' ∧
        e.1 ∉ bundleNames flows := by
  induction flows generalizing p names flowIndex with
  | nil =>
      cases hrun
      exact ⟨rfl, names, h, fun e he => ⟨he, (hbundles e he).1, List.not_mem_nil⟩⟩
  | cons o flows ih =>
      cases o with
      | none => exact ih h hrun hnodup hnames hbundles
      | some flow =>
          rw [Plan.useFlows] at hrun
          obtain ⟨p₁, h₁, hrun⟩ := Option.bind_eq_some_iff.mp hrun
          have hcons : bundleNames (some flow :: flows) =
              flow.bundle.toList ++ bundleNames flows := by
            rw [bundleNames, List.filterMap_cons, Option.bind_some]
            cases flow.bundle <;> rfl
          rw [hcons] at hnodup hnames ⊢
          obtain ⟨_, hnodup', hdisjoint⟩ := List.nodup_append.mp hnodup
          obtain ⟨hsame, hledger, hleft⟩ := h.useFlow hg h₁ fun name hname =>
            hnames name (List.mem_append_left _ (Option.mem_toList.mpr hname))
          have hstill : ∀ name ∈ names, flow.bundle ≠ some name → name ∈ stillWaiting names flow := by
            intro name hmem hne
            unfold stillWaiting
            split
            · next other hother =>
                refine (List.mem_erase_of_ne ?_).mpr hmem
                rintro rfl
                exact hne hother
            · exact hmem
          have hother : ∀ e ∈ p₁.bundles.entries, flow.bundle ≠ some e.1 := by
            intro e he hbundle
            obtain ⟨he', hnone⟩ := hleft e he
            exact (hbundles e he').2 (hnone hbundle)
          have hnames' : ∀ name ∈ bundleNames flows,
              name ∈ stillWaiting names flow ∨ p₁.channelsPerBundle.get? name = none := by
            intro name hname
            rw [hsame]
            refine (hnames name (List.mem_append_right _ hname)).imp_left fun hmem =>
              hstill name hmem fun hbundle => ?_
            exact hdisjoint name (Option.mem_toList.mpr hbundle) name hname rfl
          have hbundles' : ∀ e ∈ p₁.bundles.entries,
              e.1 ∈ stillWaiting names flow ∧ p₁.channelsPerBundle.get? e.1 ≠ none := by
            intro e he
            obtain ⟨he', _⟩ := hleft e he
            rw [hsame]
            exact ⟨hstill e.1 (hbundles e he').1 (hother e he), (hbundles e he').2⟩
          obtain ⟨hsame', names', hledger', hall⟩ := ih hledger hrun hnodup' hnames' hbundles'
          refine ⟨hsame'.trans hsame, names', hledger', fun e he => ?_⟩
          obtain ⟨he₁, hmem', hnot⟩ := hall e he
          refine ⟨(hleft e he₁).1, hmem', fun hmem => ?_⟩
          rcases List.mem_append.mp hmem with hmem | hmem
          · exact hother e he₁ (Option.mem_toList.mp hmem)
          · exact hnot hmem

/-- Keys that are left are not among those that were assigned. -/
theorem assigned_keys_count (m : ChannelMap) {assigned left : List Nat}
    (h : assigned ++ left = m.entries.map Prod.fst) (x : Nat) :
    assigned.count x + ((m.filter fun lci _ => left.contains lci).entries.map Prod.fst).count x ≤
      (m.entries.map Prod.fst).count x := by
  have hsub : ((m.filter fun lci _ => left.contains lci).entries.map Prod.fst).Sublist
      (m.entries.map Prod.fst) := (List.filter_sublist).map _
  by_cases hx : x ∈ left
  · have hone := List.nodup_iff_count_le_one.mp m.keys_nodup x
    have hpos := List.count_pos_iff.mpr hx
    have hle := hsub.count_le x
    rw [← h, List.count_append] at hone hle ⊢
    omega
  · have hnot : x ∉ (m.filter fun lci _ => left.contains lci).entries.map Prod.fst := by
      intro hmem
      obtain ⟨e, he, rfl⟩ := List.mem_map.mp hmem
      have hfilter := (List.mem_filter.mp he).2
      simp only [List.contains_eq_mem, decide_eq_true_eq] at hfilter
      exact hx hfilter
    rw [List.count_eq_zero.mpr hnot, ← h, List.count_append]
    omega

theorem Ledger.useFree {aliases : Aliases} (hg : aliases.Grouped) {p p' : Plan} {rest : List Nat}
    (h : p.Ledger (p.serverWait ++ rest)) {addr : SocketAddr} {channels : ChannelMap}
    (hget : p.channelsPerServer.get? addr = some channels)
    (hrun : p.useFree aliases addr channels = some p') : p'.Ledger (p'.serverWait ++ rest) := by
  rcases useFree_cases hrun with rfl | ⟨freeSlots, left, changes, js, kept, _, hassign, hjs, _, hkept,
    hjobs, hp'⟩
  · exact h
  · obtain ⟨assigned, hchanged, hfirsts, _⟩ := assignFree_spec hg hassign
    refine h.of_le fun x => ?_
    have hresolved : p'.resolved = p.resolved := by rw [hp']
    have hservers : p'.channelsPerServer = p.channelsPerServer.insert addr
        (channels.filter fun lci _ => left.contains lci) := by rw [hp']
    obtain ⟨others, hold, hnew⟩ := p.channelsPerServer.insert_flatMap addr
      (channels.filter fun lci _ => left.contains lci) fun e => e.2.entries.map Prod.fst
    rw [hget] at hold
    rw [← hservers] at hnew
    have hkeys := assigned_keys_count channels hfirsts x
    have hold := hold.count_eq x
    have hnew := hnew.count_eq x
    have hjobs := firsts_count_eq (hjobs.flatMap_right Job.updates) x
    have hkept := firsts_count_le (hkept.flatMap Job.updates) x
    have hchanged := firsts_count_eq hchanged x
    rw [List.flatMap_append, hjs, firsts_append, List.count_append, hchanged, firsts_append,
      List.count_append] at hjobs
    have hnil : firsts (changedUpdates .empty) = [] := rfl
    rw [hnil, List.count_nil] at hjobs
    simp only [Option.toList_some, List.flatMap_singleton, List.count_append] at hold hnew
    simp only [Plan.updates, firsts_append, List.count_append, serverWait, hresolved]
    omega

theorem Ledger.useFree_all {aliases : Aliases} (hg : aliases.Grouped)
    {es : List (SocketAddr × ChannelMap)} {p p' : Plan} {rest : List Nat}
    (h : p.Ledger (p.serverWait ++ rest))
    (hes : ∀ e ∈ es, p.channelsPerServer.get? e.1 = some e.2) (hkeys : (es.map Prod.fst).Nodup)
    (hrun : es.foldlM (fun p e => p.useFree aliases e.1 e.2) p = some p') :
    p'.Ledger (p'.serverWait ++ rest) := by
  induction es generalizing p with
  | nil =>
      obtain rfl := Option.some.inj hrun
      exact h
  | cons e es ih =>
      rw [List.foldlM_cons] at hrun
      obtain ⟨p₁, h₁, hrun⟩ := Option.bind_eq_some_iff.mp hrun
      obtain ⟨hnot, hkeys'⟩ := List.nodup_cons.mp hkeys
      obtain ⟨hget, hes'⟩ := List.forall_mem_cons.mp hes
      refine ih (h.useFree hg hget h₁) (fun e' he' => ?_) hkeys' hrun
      have hne : e'.1 ≠ e.1 := fun heq => hnot (heq ▸ List.mem_map_of_mem he')
      rcases useFree_cases h₁ with rfl | ⟨_, _, _, _, _, _, _, _, _, _, _, hp₁⟩
      · exact hes' e' he'
      · rw [hp₁]
        dsimp only
        rw [SortedMap.insert, SortedMap.get?_alter_of_ne hne]
        exact hes' e' he'

/-! ## New flows -/

/-- A flow at a free index, and the future for it. -/
def addFlow (p : Plan) (flow : RxFlow) (addr : SocketAddr) (job : Job) : Plan :=
  (p.putFlow flow).pushFuture addr job

theorem newMulticast_cases {cfg : SubscriberConfig} {env : ResolveEnv} {aliases : Aliases}
    {p p' : Plan} {e : String × AdvertisedBundle}
    (h : p.newMulticast cfg env aliases e = some p') :
    p' = p ∨ ∃ channels updates latencySamples now,
      p.channelsPerBundle.get? e.1 = some channels ∧
      bundleUpdates aliases (freeFlowIndex p.flows) channels.entries = some updates ∧
      p' = p.addFlow (RxFlow.new (freeFlowIndex p.flows + 1) (.multicast e.1)
          e.2.txChannelsPerFlow [] latencySamples now) e.2.mediaAddr
        (.addMulticast (freeFlowIndex p.flows) e.2 latencySamples updates) := by
  unfold Plan.newMulticast at h
  dsimp only at h
  split at h
  · exact .inl (Option.some.inj h).symm
  · obtain ⟨channels, hget, h⟩ := Option.bind_eq_some_iff.mp h
    obtain ⟨updates, hupdates, h⟩ := Option.bind_eq_some_iff.mp h
    exact .inr ⟨channels, updates, _, _, hget, hupdates, (Option.some.inj h).symm⟩

theorem newFlow_cases {cfg : SubscriberConfig} {env : ResolveEnv} {aliases : Aliases}
    {addr : SocketAddr} {first : AdvertisedChannel} {n : Nat} {p p' : Plan}
    {chunk : List (Nat × AdvertisedChannel)}
    (h : p.newFlow cfg env aliases addr first n chunk = some p') :
    ∃ flow flowName updates, chunkUpdates aliases (freeFlowIndex p.flows) 0 chunk = some updates ∧
      flow = RxFlow.new (freeFlowIndex p.flows + 1) (.unicast first.addr first.dbcp1 none) n
        (chunk.map (·.2.txChannelId)) flow.latencySamples flow.creationTime ∧
      p' = p.addFlow flow addr (.requestFlow (freeFlowIndex p.flows) first flow.txChannels flowName
        flow.latencySamples updates) := by
  unfold Plan.newFlow at h
  obtain ⟨updates, hupdates, h⟩ := Option.bind_eq_some_iff.mp h
  exact ⟨_, _, updates, hupdates, rfl, (Option.some.inj h).symm⟩

theorem addFlow_firsts (p : Plan) (flow : RxFlow) (addr : SocketAddr) (job : Job) (x : Nat) :
    (firsts (p.addFlow flow addr job).updates).count x =
      (firsts p.updates).count x + (firsts job.updates).count x := by
  have hjobs := firsts_count_eq (((p.putFlow flow).pushFuture_jobs addr job).flatMap_right
    Job.updates) x
  rw [List.flatMap_append, firsts_append, List.count_append, List.flatMap_singleton] at hjobs
  have hsame : ((p.putFlow flow).jobs.flatMap Job.updates) = p.jobs.flatMap Job.updates := rfl
  rw [hsame] at hjobs
  have hresolved : (p.addFlow flow addr job).resolved = p.resolved := rfl
  rw [updates, updates, firsts_append, firsts_append, List.count_append, List.count_append,
    hresolved, addFlow, hjobs, Nat.add_assoc]

theorem Ledger.newMulticasts {cfg : SubscriberConfig} {env : ResolveEnv} {aliases : Aliases}
    (hg : aliases.Grouped) {es : List (String × AdvertisedBundle)} {p p' : Plan}
    {names : List String} (h : p.Ledger (p.serverWait ++ names.flatMap p.waitingFor))
    (hes : ∀ e ∈ es, e.1 ∈ names) (hkeys : (es.map Prod.fst).Nodup)
    (hrun : es.foldlM (fun p e => p.newMulticast cfg env aliases e) p = some p') :
    p'.Ledger p'.serverWait := by
  induction es generalizing p names with
  | nil =>
      obtain rfl := Option.some.inj hrun
      refine h.of_le fun x => ?_
      rw [List.count_append]
      omega
  | cons e es ih =>
      rw [List.foldlM_cons] at hrun
      obtain ⟨p₁, h₁, hrun⟩ := Option.bind_eq_some_iff.mp hrun
      obtain ⟨hnot, hkeys'⟩ := List.nodup_cons.mp hkeys
      obtain ⟨hname, hes'⟩ := List.forall_mem_cons.mp hes
      have hrest : ∀ e' ∈ es, e'.1 ∈ names.erase e.1 := by
        intro e' he'
        have hne : e'.1 ≠ e.1 := fun heq => hnot (heq ▸ List.mem_map_of_mem he')
        exact (List.mem_erase_of_ne hne).mpr (hes' e' he')
      rcases newMulticast_cases h₁ with hsame | ⟨channels, updates, latency, now, hget, hupdates, rfl⟩
      · rw [hsame] at hrun
        exact ih h hes' hkeys' hrun
      · refine @ih _ (names.erase e.1) (h.of_le fun x => ?_) hrest hkeys' hrun
        have hperm := ((List.perm_cons_erase hname).flatMap_right p.waitingFor).count_eq x
        rw [List.flatMap_cons, waitingFor, hget] at hperm
        simp only [Option.getD_some, List.count_append] at hperm
        rw [addFlow_firsts, List.count_append, List.count_append]
        show (_ + (firsts updates).count x) +
          (p.serverWait.count x + ((names.erase e.1).flatMap p.waitingFor).count x) ≤ _
        rw [(bundleUpdates_serves hupdates).firsts hg]
        omega

/-- What is left of a list in chunks. -/
theorem chunksOf_flatten {β : Type} (n fuel : Nat) (l : List β) :
    (chunksOf n fuel l).flatten.Sublist l := by
  induction fuel generalizing l with
  | zero =>
      rw [chunksOf]
      exact List.nil_sublist l
  | succ fuel ih =>
      cases l with
      | nil => exact .slnil
      | cons a l =>
          rw [chunksOf, List.flatten_cons]
          · have h := (ih ((a :: l).drop n)).append_left ((a :: l).take n)
            rwa [List.take_append_drop] at h
          · exact fun hnil => by cases hnil

theorem Ledger.newFlow_all {cfg : SubscriberConfig} {env : ResolveEnv} {aliases : Aliases}
    (hg : aliases.Grouped) {addr : SocketAddr} {first : AdvertisedChannel} {n : Nat}
    {parts : List (List (Nat × AdvertisedChannel))} {p p' : Plan} {wait : List Nat}
    (h : p.Ledger (parts.flatten.map Prod.fst ++ wait))
    (hrun : parts.foldlM (fun p chunk => p.newFlow cfg env aliases addr first n chunk) p =
      some p') : p'.Ledger wait := by
  induction parts generalizing p with
  | nil =>
      obtain rfl := Option.some.inj hrun
      exact h
  | cons chunk parts ih =>
      rw [List.foldlM_cons] at hrun
      obtain ⟨p₁, h₁, hrun⟩ := Option.bind_eq_some_iff.mp hrun
      obtain ⟨flow, flowName, updates, hupdates, _, rfl⟩ := newFlow_cases h₁
      refine ih (h.of_le fun x => ?_) hrun
      rw [addFlow_firsts]
      show _ + (firsts updates).count x + _ ≤ _
      rw [(chunkUpdates_serves hupdates).1.firsts hg, List.flatten_cons, List.map_append,
        List.append_assoc]
      simp only [List.count_append]
      omega

theorem Ledger.newFlows {cfg : SubscriberConfig} {env : ResolveEnv} {aliases : Aliases}
    (hg : aliases.Grouped) {rxChannels : Nat} {e : SocketAddr × ChannelMap} {p p' : Plan}
    {wait : List Nat} (h : p.Ledger (e.2.entries.map Prod.fst ++ wait))
    (hrun : p.newFlows cfg env aliases rxChannels e = some p') : p'.Ledger wait := by
  unfold Plan.newFlows at hrun
  split at hrun
  · obtain rfl := Option.some.inj hrun
    refine h.of_le fun x => ?_
    rw [List.count_append]
    omega
  · obtain ⟨parts, hparts, hrun⟩ := Option.bind_eq_some_iff.mp hrun
    unfold chunks at hparts
    split at hparts
    · cases hparts
    obtain rfl := Option.some.inj hparts
    refine newFlow_all hg (h.of_le fun x => ?_) hrun
    rw [List.count_append, List.count_append]
    refine Nat.add_le_add_left (Nat.add_le_add_right ?_ _) _
    exact ((chunksOf_flatten _ _ _).map Prod.fst).count_le x

theorem Ledger.newFlows_all {cfg : SubscriberConfig} {env : ResolveEnv} {aliases : Aliases}
    (hg : aliases.Grouped) {rxChannels : Nat} {es : List (SocketAddr × ChannelMap)} {p p' : Plan}
    (h : p.Ledger (es.flatMap fun e => e.2.entries.map Prod.fst))
    (hrun : es.foldlM (fun p e => p.newFlows cfg env aliases rxChannels e) p = some p') :
    p'.Ledger [] := by
  induction es generalizing p with
  | nil =>
      obtain rfl := Option.some.inj hrun
      exact h
  | cons e es ih =>
      rw [List.foldlM_cons] at hrun
      obtain ⟨p₁, h₁, hrun⟩ := Option.bind_eq_some_iff.mp hrun
      rw [List.flatMap_cons] at h
      exact ih (h.newFlows hg h₁) hrun

/-- The bundles that are heard of, and what waits for them. -/
theorem begin_bundles (env : ResolveEnv) (flows : List (Option RxFlow)) (needed : List Nat)
    (resolved : List ChannelSourceUpdate) :
    ∀ e ∈ (Plan.begin env flows needed resolved).bundles.entries,
      e.1 ∈ (Plan.begin env flows needed resolved).channelsPerBundle.entries.map Prod.fst ∧
      (Plan.begin env flows needed resolved).channelsPerBundle.get? e.1 ≠ none := by
  intro e he
  obtain ⟨⟨name, channels⟩, hmem, hname⟩ := List.mem_filterMap.mp he
  obtain ⟨bundle, _, rfl⟩ := Option.map_eq_some_iff.mp hname
  have hget := SortedMap.get?_of_mem hmem
  exact ⟨List.mem_map.mpr ⟨_, hmem, rfl⟩, fun hnone => Option.some_ne_none _ (hget.symm.trans hnone)⟩

/-- The bundles there will be flows for, once the flows have been looked at. -/
theorem useFlows_ledger {env : ResolveEnv} {aliases : Aliases} (hg : aliases.Grouped)
    {flows : List (Option RxFlow)} {needed : List Nat} {resolved : List ChannelSourceUpdate}
    {p : Plan} (hneeded : (firsts resolved ++ needed).Nodup)
    (hbundles : (bundleNames flows).Nodup)
    (h : (Plan.begin env flows needed resolved).useFlows aliases 0 flows = some p) :
    (∃ names : List String, p.Ledger (p.serverWait ++ names.flatMap p.waitingFor) ∧
      ∀ e ∈ p.bundles.entries, e.1 ∈ names) ∧
    ∀ e ∈ p.bundles.entries, e.1 ∉ bundleNames flows := by
  have hheard := begin_bundles env flows needed resolved
  have hnames : ∀ name ∈ bundleNames flows,
      name ∈ (Plan.begin env flows needed resolved).channelsPerBundle.entries.map Prod.fst ∨
        (Plan.begin env flows needed resolved).channelsPerBundle.get? name = none := by
    intro name _
    cases hget : (Plan.begin env flows needed resolved).channelsPerBundle.get? name with
    | none => exact .inr rfl
    | some channels => exact .inl (List.mem_map.mpr ⟨_, SortedMap.mem_of_get? hget, rfl⟩)
  obtain ⟨_, names, hledger, hleft⟩ :=
    (begin_ledger hneeded).useFlows hg h hbundles hnames hheard
  exact ⟨⟨names, hledger, fun e he => (hleft e he).2.1⟩, fun e he => (hleft e he).2.2⟩

/-- The free slots are used without a look at bundles. -/
theorem useFree_all_same {aliases : Aliases} {es : List (SocketAddr × ChannelMap)} {p p' : Plan}
    (h : es.foldlM (fun p e => p.useFree aliases e.1 e.2) p = some p') :
    p'.flows = p.flows ∧ p'.resolved = p.resolved ∧ p'.bundles = p.bundles ∧
      p'.channelsPerBundle = p.channelsPerBundle ∧ p'.freeSlots = p.freeSlots := by
  refine foldlM_inv (I := fun q : Plan => q.flows = p.flows ∧ q.resolved = p.resolved ∧
    q.bundles = p.bundles ∧ q.channelsPerBundle = p.channelsPerBundle ∧ q.freeSlots = p.freeSlots)
    (fun q e q' _ hq hstep => ?_) ⟨rfl, rfl, rfl, rfl, rfl⟩ h
  rcases useFree_cases hstep with rfl | ⟨_, _, _, _, _, _, _, _, _, _, _, hq'⟩
  · exact hq
  · rw [hq']
    exact hq

end Plan

/-! ## The whole plan -/

/-- The channels that are needed are in groups, each first in one of them. -/
theorem planResolve_grouped {channels : List (Option ChannelSubscription)}
    {dealiased needed : List Nat} {aliases : Aliases} {resolved : List ChannelSourceUpdate}
    (h1 : dealias channels (neededChannelIndices channels) (fun _ => none) (fun _ => none) =
      some (dealiased, aliases))
    (h2 : reuseConnected channels aliases dealiased = some (needed, resolved)) :
    aliases.Grouped ∧ (firsts resolved ++ needed).Nodup := by
  have hnodup : (neededChannelIndices channels).Nodup := List.nodup_range.filter _
  obtain ⟨hg, hkept⟩ := dealias_grouped h1 hnodup (fun _ _ hnone => (by cases hnone))
    (fun _ _ hnone => (by cases hnone)) ⟨fun _ _ hnone => (by cases hnone),
      fun _ _ hnone => (by cases hnone), fun _ _ _ _ _ hnone => (by cases hnone)⟩
  obtain ⟨shared, hperm, hserves⟩ := reuseConnected_serves h2
  rw [hserves.firsts hg]
  exact ⟨hg, hperm.nodup_iff.mpr (hkept.nodup hnodup)⟩

/-- No channel is in two updates of a plan, or twice in one. -/
theorem planResolve_nodup {cfg : SubscriberConfig} {env : ResolveEnv}
    {channels : List (Option ChannelSubscription)} {flows : List (Option RxFlow)} {p : Plan}
    (h : planResolve cfg env channels flows = some p) (hbundles : (Plan.bundleNames flows).Nodup) :
    (p.updates.flatMap ChannelSourceUpdate.localChannelIndices).Nodup := by
  obtain ⟨dealiased, aliases, needed, resolved, p₁, p₂, p₃, h1, h2, h3, h4, h5, h6⟩ :=
    planResolve_steps h
  obtain ⟨hg, hneeded⟩ := planResolve_grouped h1 h2
  obtain ⟨⟨names, hledger₁, hnames⟩, _⟩ := Plan.useFlows_ledger hg hneeded hbundles h3
  have hledger₂ := hledger₁.useFree_all hg (fun e he => SortedMap.get?_of_mem he)
    p₁.channelsPerServer.keys_nodup h4
  obtain ⟨_, _, hsame, hsameBundle, _⟩ := Plan.useFree_all_same h4
  have hwaiting : p₂.waitingFor = p₁.waitingFor := by
    funext name
    rw [Plan.waitingFor, Plan.waitingFor, hsameBundle]
  rw [← hwaiting] at hledger₂
  have hledger₃ := hledger₂.newMulticasts hg (fun e he => hnames e (hsame ▸ he))
    p₂.bundles.keys_nodup h5
  have hledger := Plan.Ledger.newFlows_all hg hledger₃ h6
  exact hg.flatMap_nodup (planResolve_named h2 h3 h4 h5 h6).updates hledger.nodup

/-- All the updates of a plan are for channels that nobody served. -/
theorem planResolve_unserved {cfg : SubscriberConfig} {env : ResolveEnv}
    {channels : List (Option ChannelSubscription)} {flows : List (Option RxFlow)} {p : Plan}
    (h : planResolve cfg env channels flows = some p) :
    ∀ u ∈ p.updates, ∀ chi ∈ u.localChannelIndices, Unserved channels chi := by
  obtain ⟨hresolved, hfutures⟩ := planResolve_needed h
  intro u hu
  rcases List.mem_append.mp hu with hu | hu
  · exact hresolved u hu
  · obtain ⟨job, hjob, hu⟩ := List.mem_flatMap.mp hu
    obtain ⟨e, he, hjob⟩ := Plan.mem_jobs.mp hjob
    exact hfutures e he job hjob u hu

end Inferno
