import Inferno.TxMulticasts

/-!
# The channel-to-multicast map

`multicasts_by_channel` is the reverse index of the activated bundles, by
bundle id. Activating a bundle enters its channels, deleting it clears them by
channel alone. That keeps the map as long as every step is `Tidy`: no task
activates a bundle that is gone from the table, no deletion clears a channel
that another activated bundle carries, and none leaves entries behind
(`map_matches`).
-/

namespace Inferno

namespace TransmitMulticasts

/-- A bundle that was activated and not deleted. -/
def IsActive (w : TransmitMulticasts) (i : Nat) (bundle : Bundle) : Prop :=
  w.bundles[i]? = some (some bundle) ∧ w.dstAddrs bundle.dstAddr ≠ 0

/-- The map has an entry for exactly the channels of the activated bundles, and
an entry names one of them and a position at which it carries the channel. -/
structure MapMatches (w : TransmitMulticasts) : Prop where
  entry : ∀ c, (w.multicastsByChannel c).isSome ↔
    ∃ i bundle, w.IsActive i bundle ∧ some c ∈ bundle.localChannelIndices
  names : ∀ c p, w.multicastsByChannel c = some p →
    ∃ i bundle, w.IsActive i bundle ∧ p.bundleId = i + 1 ∧
      bundle.localChannelIndices[p.channelInBundle]? = some (some c)

/-- The channels of the activated bundles, by bundle id. -/
def activeById (w : TransmitMulticasts) : Nat → Option (List (Option Nat))
  | 0 => none
  | i + 1 =>
      match w.bundles[i]? with
      | some (some bundle) =>
          if w.dstAddrs bundle.dstAddr = 0 then none else some bundle.localChannelIndices
      | _ => none

theorem activeById_eq_some_iff {w : TransmitMulticasts} {id : Nat} {l : List (Option Nat)} :
    w.activeById id = some l ↔
      ∃ i bundle, id = i + 1 ∧ w.IsActive i bundle ∧ bundle.localChannelIndices = l := by
  cases id with
  | zero =>
      constructor
      · intro h
        cases h
      · rintro ⟨i, _, h, _⟩
        cases h
  | succ i =>
      rw [activeById]
      constructor
      · intro h
        split at h
        · next bundle hb =>
            split at h
            · cases h
            · next hne => exact ⟨i, bundle, rfl, ⟨hb, hne⟩, Option.some.inj h⟩
        · cases h
      · rintro ⟨j, bundle, hj, ⟨hb, hne⟩, rfl⟩
        cases hj
        rw [hb]
        exact if_neg hne

/-- The bundle at an index and its cell decide. -/
theorem activeById_congr {w w' : TransmitMulticasts} {i : Nat}
    (hb : w'.bundles[i]? = w.bundles[i]?)
    (hd : ∀ bundle, w.bundles[i]? = some (some bundle) →
      w'.dstAddrs bundle.dstAddr = w.dstAddrs bundle.dstAddr) :
    w'.activeById (i + 1) = w.activeById (i + 1) := by
  rw [activeById, activeById, hb]
  split
  · next bundle h => simp only [hd bundle h]
  · rfl

/-- The same, as a reverse index. -/
abbrev Indexed (w : TransmitMulticasts) : Prop :=
  ReverseIndex.Exact PointerToMulticast.bundleId PointerToMulticast.channelInBundle w.activeById
    w.multicastsByChannel

theorem Indexed.mapMatches {w : TransmitMulticasts} (h : w.Indexed) : w.MapMatches := by
  constructor
  · intro c
    rw [h.listed c]
    constructor
    · rintro ⟨id, l, hl, hmem⟩
      obtain ⟨i, bundle, _, hactive, rfl⟩ := activeById_eq_some_iff.mp hl
      exact ⟨i, bundle, hactive, hmem⟩
    · rintro ⟨i, bundle, hactive, hmem⟩
      exact ⟨i + 1, _, activeById_eq_some_iff.mpr ⟨i, bundle, rfl, hactive, rfl⟩, hmem⟩
  · intro c p hp
    obtain ⟨l, hl, hat⟩ := h.points c p hp
    obtain ⟨i, bundle, hid, hactive, rfl⟩ := activeById_eq_some_iff.mp hl
    exact ⟨i, bundle, hactive, hid, hat⟩

/-- What holds at every point: the map is the index, and the cells tell bundles
and waiting tasks apart. -/
structure MapInv (w : TransmitMulticasts) : Prop where
  indexed : w.Indexed
  bundleCell : ∀ (i : Nat) (bundle : Bundle), w.bundles[i]? = some (some bundle) → bundle.dstAddr < w.nextCell
  taskCell : ∀ task ∈ w.tasks, task.dstAddrArc < w.nextCell
  taskAddr : ∀ task ∈ w.tasks, task.dstAddr ≠ 0
  shared : ∀ task ∈ w.tasks, ∀ (i : Nat) (bundle : Bundle), w.bundles[i]? = some (some bundle) →
    bundle.dstAddr = task.dstAddrArc →
      i = task.flowIndex ∧ bundle.localChannelIndices = task.channelIndices
  fresh : ∀ c, w.nextCell ≤ c → w.dstAddrs c = 0

/-! ## When a step keeps the map -/

/-- A deletion gets as far as clearing the channels. -/
def Clears (w : TransmitMulticasts) (flowIndex : Nat) : Prop :=
  w.shouldWork = true ∧ ∃ t, w.flowsTx = some t ∧
    (t.tx.receiverGone = false ∨
      ∀ info, t.tx.flowsInfo[flowIndex]? = some (some info) → info.isMulticast = false)

/-- A bundle may be taken out of the table: none of its channels is carried by
another activated bundle, if they are cleared, and the map does not name it
otherwise. -/
structure MayRemove (w : TransmitMulticasts) (flowIndex : Nat) (bundle : Bundle) : Prop where
  clears : w.Clears flowIndex → ∀ i other, i ≠ flowIndex → w.IsActive i other →
    ∀ c, some c ∈ bundle.localChannelIndices → some c ∉ other.localChannelIndices
  leaves : ¬ w.Clears flowIndex → ∀ c p, w.multicastsByChannel c = some p →
    p.bundleId ≠ flowIndex + 1

/-- A task may activate its bundle: it still is in the table, or has no channel. -/
def MayActivate (w : TransmitMulticasts) (task : GraceTask) : Prop :=
  (∃ bundle, w.bundles[task.flowIndex]? = some (some bundle) ∧
    bundle.dstAddr = task.dstAddrArc) ∨ ∀ c, some c ∉ task.channelIndices

/-- The steps that keep the map. -/
def Tidy (w : TransmitMulticasts) : MulticastEvent → Prop
  | .grace k used₁ used₂ _ => ∀ task, w.tasks[k]? = some task → w.flowsTx.isSome →
      w.shouldWork = true → used₁ = some false → used₂ = some false → w.MayActivate task
  | .delete i => w.published = true → w.creating = none →
      ∀ bundle, w.bundles[i]? = some (some bundle) → w.MayRemove i bundle
  | .shutdown => w.published = true → ∀ c, w.multicastsByChannel c = none
  | _ => True

/-- Every step of the run is tidy in the state it is made in. -/
def TidyRun (dev : MulticastDevice) (sampleRate : BitVec 32) :
    TransmitMulticasts → List MulticastEvent → Prop
  | _, [] => True
  | w, e :: events => w.Tidy e ∧ TidyRun dev sampleRate (w.step dev sampleRate e) events

/-! ## Steps -/

/-- What stands in a table after one entry was set. -/
theorem set_some_cases {α : Type} {l : List (Option α)} {i j : Nat} {a b : α}
    (h : (l.set i (some a))[j]? = some (some b)) :
    j = i ∧ b = a ∨ j ≠ i ∧ l[j]? = some (some b) := by
  by_cases hne : j = i
  · rw [hne, List.getElem?_set] at h
    split at h
    · split at h <;> cases h
      exact Or.inl ⟨hne, rfl⟩
    · next hf => exact absurd rfl hf
  · rw [List.getElem?_set_ne (Ne.symm hne)] at h
    exact Or.inr ⟨hne, h⟩

/-- What stands in a table after one entry was cleared. -/
theorem set_none_cases {α : Type} {l : List (Option α)} {i j : Nat} {b : α}
    (h : (l.set i none)[j]? = some (some b)) : j ≠ i ∧ l[j]? = some (some b) := by
  by_cases hne : j = i
  · rw [hne, List.getElem?_set] at h
    split at h
    · split at h <;> cases h
    · next hf => exact absurd rfl hf
  · rw [List.getElem?_set_ne (Ne.symm hne)] at h
    exact ⟨hne, h⟩

section

variable {dev : MulticastDevice} {w : TransmitMulticasts}

/-- The fields the invariant is about; tasks may have ended. -/
theorem MapInv.congr {w' : TransmitMulticasts} (h : w.MapInv) (hb : w'.bundles = w.bundles)
    (hm : w'.multicastsByChannel = w.multicastsByChannel) (hd : w'.dstAddrs = w.dstAddrs)
    (hn : w'.nextCell = w.nextCell) (ht : ∀ task ∈ w'.tasks, task ∈ w.tasks) : w'.MapInv := by
  obtain ⟨h1, h2, h3, h4, h5, h6⟩ := h
  have hactive : w'.activeById = w.activeById := by
    funext id
    cases id with
    | zero => rfl
    | succ i => exact activeById_congr (by rw [hb]) fun _ _ => by rw [hd]
  refine ⟨by rw [Indexed, hactive, hm]; exact h1, by rwa [hb, hn], fun task hmem => ?_,
    fun task hmem => h4 task (ht task hmem), fun task hmem => ?_, by rwa [hn, hd]⟩
  · rw [hn]
    exact h3 task (ht task hmem)
  · rw [hb]
    exact h5 task (ht task hmem)

theorem multicastAddress_ne_zero (bytes : Byte × Byte) :
    FlowsTransmitter.multicastAddress bytes ≠ 0 := by
  intro h
  have htop := congrArg BitVec.msb h
  rw [FlowsTransmitter.multicastAddress, fromBeBytes] at htop
  simp only [BitVec.msb_append] at htop
  rw [if_neg (by decide), if_neg (by decide), if_neg (by decide)] at htop
  exact absurd htop (by decide)

theorem randomMulticastDestination_ne_zero {tx : FlowsTransmitter} {addresses : List (Byte × Byte)}
    {dst : BitVec 32 × BitVec 16} (h : tx.randomMulticastDestination addresses = some dst) :
    dst.1 ≠ 0 ∧ tx.ipPortToId ⟨dst.1, dst.2⟩ = none := by
  obtain ⟨ip, hfind, rfl⟩ := Option.map_eq_some_iff.mp h
  obtain ⟨bytes, _, rfl⟩ := List.mem_map.mp (List.mem_of_find?_eq_some hfind)
  have hfree := List.find?_some hfind
  refine ⟨multicastAddress_ne_zero bytes, ?_⟩
  simpa [FlowsTransmitter.destinationExists] using hfree

/-- A new bundle is not active yet. -/
theorem MapInv.insertBundle (h : w.MapInv) {i : Nat} (hfree : w.bundles[i]? = some none)
    (chs : List (Option Nat)) (dstAddr : BitVec 32) (dstPort : BitVec 16) :
    (w.insertBundle i chs dstAddr dstPort).MapInv := by
  obtain ⟨h1, h2, h3, h4, h5, h6⟩ := h
  have hlt : i < w.bundles.length := (List.getElem?_eq_some_iff.mp hfree).1
  have hactive : (w.insertBundle i chs dstAddr dstPort).activeById = w.activeById := by
    funext id
    cases id with
    | zero => rfl
    | succ j =>
        by_cases hne : j = i
        · rw [activeById, activeById, hne, hfree]
          simp only [TransmitMulticasts.insertBundle, List.getElem?_set_self hlt]
          exact if_pos (h6 _ (Nat.le_refl _))
        · exact activeById_congr (List.getElem?_set_ne (Ne.symm hne)) fun _ _ => rfl
  have htask : ∀ task ∈ (w.insertBundle i chs dstAddr dstPort).tasks, task ∈ w.tasks ∨
      dstAddr ≠ 0 ∧ task = ⟨i, chs, w.nextCell, dstAddr, dstPort⟩ := by
    intro task hmem
    simp only [TransmitMulticasts.insertBundle] at hmem
    split at hmem
    · exact Or.inl hmem
    · next hne =>
        rcases List.mem_append.mp hmem with hmem | hmem
        · exact Or.inl hmem
        · exact Or.inr ⟨hne, List.mem_singleton.mp hmem⟩
  refine ⟨?_, ?_, ?_, ?_, ?_, ?_⟩
  · rw [Indexed, hactive]
    exact h1
  · intro j bundle hj
    rcases set_some_cases hj with ⟨_, rfl⟩ | ⟨_, hold⟩
    · exact Nat.lt_succ_self _
    · exact Nat.lt_succ_of_lt (h2 j bundle hold)
  · intro task hmem
    rcases htask task hmem with hold | ⟨_, rfl⟩
    · exact Nat.lt_succ_of_lt (h3 task hold)
    · exact Nat.lt_succ_self _
  · intro task hmem
    rcases htask task hmem with hold | ⟨hne, rfl⟩
    · exact h4 task hold
    · exact hne
  · intro task hmem j bundle hj hcell
    rcases htask task hmem with hold | ⟨_, rfl⟩ <;>
      rcases set_some_cases hj with ⟨hji, rfl⟩ | ⟨_, hb⟩
    · exact absurd (h3 task hold) (by rw [← hcell]; exact Nat.lt_irrefl _)
    · exact h5 task hold j bundle hb hcell
    · exact ⟨hji, rfl⟩
    · exact absurd (h2 j bundle hb) (by rw [hcell]; exact Nat.lt_irrefl _)
  · intro c hc
    exact h6 c (Nat.le_of_succ_le hc)

theorem MapInv.addFlowInternal (h : w.MapInv) (i : Nat) (chs : List (Option Nat))
    (preferred : BitVec 32) (draw : MulticastDraw) :
    (w.addFlowInternal dev i chs preferred draw).MapInv := by
  unfold TransmitMulticasts.addFlowInternal
  split
  · next hfree =>
      split
      · exact h.insertBundle hfree chs 0 0
      · dsimp only
        split
        · exact h
        · split
          · have h' := fun tx : TxTables => @MapInv.congr w { w with flowsTx := some tx } h rfl rfl
              rfl rfl fun _ hmem => hmem
            exact (h' _).insertBundle hfree chs _ _
          · exact h.congr rfl rfl rfl rfl fun _ hmem => hmem
  · exact h.congr rfl rfl rfl rfl fun _ hmem => hmem

/-! ## Activating -/

/-- A task may run: its bundle is active from then on. -/
theorem MapInv.activate (h : w.MapInv) {k : Nat} {task : GraceTask}
    (htask : w.tasks[k]? = some task) (hmay : w.MayActivate task) (t : TxTables) :
    (TransmitMulticasts.activate dev { w with tasks := w.tasks.eraseIdx k } t task).MapInv := by
  have hmem := List.mem_of_getElem? htask
  have hsub : ∀ task' ∈ w.tasks.eraseIdx k, task' ∈ w.tasks := fun _ => List.mem_of_mem_eraseIdx
  suffices hkey : MapInv { w with
      tasks := w.tasks.eraseIdx k
      dstAddrs := Function.update w.dstAddrs task.dstAddrArc task.dstAddr
      multicastsByChannel := ReverseIndex.insertAll
        (fun channelInBundle => ⟨"", task.flowIndex + 1, channelInBundle⟩)
        w.multicastsByChannel task.channelIndices } by
    unfold TransmitMulticasts.activate
    dsimp only
    split
    · split <;> exact hkey.congr rfl rfl rfl rfl fun _ hm => hm
    · exact hkey.congr rfl rfl rfl rfl fun _ hm => hm
  obtain ⟨h1, h2, h3, h4, h5, h6⟩ := h
  refine ⟨?_, h2, fun task' hm => h3 task' (hsub task' hm), fun task' hm => h4 task' (hsub task' hm),
    fun task' hm => h5 task' (hsub task' hm), fun c hc => ?_⟩
  · -- the bundles the cell belongs to: the task's own, if it is still there
    have hother : ∀ j bundle, w.bundles[j]? = some (some bundle) → j ≠ task.flowIndex →
        Function.update w.dstAddrs task.dstAddrArc task.dstAddr bundle.dstAddr =
          w.dstAddrs bundle.dstAddr := by
      intro j bundle hj hne
      exact Function.update_of_ne (fun heq => hne (h5 task hmem j bundle hj heq).1) _ _
    by_cases hin : ∃ bundle, w.bundles[task.flowIndex]? = some (some bundle) ∧
        bundle.dstAddr = task.dstAddrArc
    · obtain ⟨bundle, hb, hcell⟩ := hin
      have hchs := (h5 task hmem _ bundle hb hcell).2
      have hold : w.activeById (task.flowIndex + 1) = none ∨
          w.activeById (task.flowIndex + 1) = some task.channelIndices := by
        rw [activeById, hb]
        dsimp only
        split
        · exact Or.inl rfl
        · exact Or.inr (congrArg some hchs)
      have hins := h1.insertAll hold
        (fun p => (⟨rfl, rfl⟩ : PointerToMulticast.bundleId ⟨"", task.flowIndex + 1, p⟩ =
          task.flowIndex + 1 ∧ PointerToMulticast.channelInBundle ⟨"", task.flowIndex + 1, p⟩ = p))
      convert hins using 1
      funext id
      cases id with
      | zero => rfl
      | succ j =>
          by_cases hne : j = task.flowIndex
          · subst hne
            rw [Function.update_self]
            refine activeById_eq_some_iff.mpr ⟨task.flowIndex, bundle, rfl, ⟨hb, ?_⟩, hchs⟩
            dsimp only
            rw [hcell, Function.update_self]
            exact h4 task hmem
          · rw [Function.update_of_ne (fun heq => hne (Nat.succ.inj heq))]
            exact activeById_congr rfl fun bundle' hb' => hother j bundle' hb' hne
    · have hmap : ReverseIndex.insertAll
          (fun channelInBundle => ⟨"", task.flowIndex + 1, channelInBundle⟩)
          w.multicastsByChannel task.channelIndices = w.multicastsByChannel :=
        funext fun c => ReverseIndex.insertAll_of_not_mem _ _ (hmay.resolve_left hin c)
      rw [Indexed]
      dsimp only
      rw [hmap]
      convert h1 using 1
      funext id
      cases id with
      | zero => rfl
      | succ j =>
          refine activeById_congr rfl fun bundle hb => Function.update_of_ne (fun heq => ?_) _ _
          obtain ⟨rfl, _⟩ := h5 task hmem j bundle hb heq
          exact hin ⟨bundle, hb, heq⟩
  · have hne : c ≠ task.dstAddrArc := by
      rintro rfl
      exact absurd (h3 task hmem) (Nat.not_lt.mpr hc)
    exact (Function.update_of_ne hne _ _).trans (h6 c hc)

/-! ## Removing -/

/-- Without its bundle at `i` the table has one list less. -/
theorem activeById_remove {w' : TransmitMulticasts} {i : Nat}
    (hb : w'.bundles = w.bundles.set i none) (hd : w'.dstAddrs = w.dstAddrs) :
    w'.activeById = Function.update w.activeById (i + 1) none := by
  funext id
  cases id with
  | zero => rw [Function.update_of_ne (Nat.succ_ne_zero i).symm, activeById, activeById]
  | succ j =>
      by_cases hne : j = i
      · rw [hne, Function.update_self, activeById, hb]
        split
        · next bundle hj => exact absurd rfl (set_none_cases hj).1
        · rfl
      · rw [Function.update_of_ne (fun heq => hne (Nat.succ.inj heq))]
        exact activeById_congr (by rw [hb, List.getElem?_set_ne (Ne.symm hne)]) fun _ _ => by rw [hd]

/-- The parts that do not depend on the map. -/
theorem MapInv.remove {w' : TransmitMulticasts} (h : w.MapInv) {i : Nat}
    (hb : w'.bundles = w.bundles.set i none) (hd : w'.dstAddrs = w.dstAddrs)
    (hn : w'.nextCell = w.nextCell) (ht : w'.tasks = w.tasks) (hindexed : w'.Indexed) :
    w'.MapInv := by
  obtain ⟨_, h2, h3, h4, h5, h6⟩ := h
  have hold : ∀ (j : Nat) (bundle : Bundle), w'.bundles[j]? = some (some bundle) →
      w.bundles[j]? = some (some bundle) := by
    intro j bundle hj
    rw [hb] at hj
    exact (set_none_cases hj).2
  refine ⟨hindexed, fun j bundle hj => ?_, by rwa [ht, hn], by rwa [ht], ?_, by rwa [hn, hd]⟩
  · rw [hn]
    exact h2 j bundle (hold j bundle hj)
  · rw [ht]
    exact fun task hmem j bundle hj => h5 task hmem j bundle (hold j bundle hj)

theorem activeById_cases {i : Nat} {bundle : Bundle} (hb : w.bundles[i]? = some (some bundle)) :
    w.activeById (i + 1) = none ∨ w.activeById (i + 1) = some bundle.localChannelIndices := by
  rw [activeById, hb]
  dsimp only
  split
  · exact Or.inl rfl
  · exact Or.inr rfl

theorem removeMulticastFlow_isSome {tx : FlowsTransmitter} {i : Nat} :
    (tx.removeMulticastFlow i).isSome = true ↔ tx.receiverGone = false ∨
      ∀ info, tx.flowsInfo[i]? = some (some info) → info.isMulticast = false := by
  unfold FlowsTransmitter.removeMulticastFlow
  rcases hinfo : tx.flowsInfo[i]? with _ | _ | info
  · refine ⟨fun _ => Or.inr fun info h => ?_, fun _ => rfl⟩
    cases h
  · refine ⟨fun _ => Or.inr fun info h => ?_, fun _ => rfl⟩
    cases h
  · dsimp only
    cases hmc : info.isMulticast with
    | false =>
        refine ⟨fun _ => Or.inr fun info' h => ?_, fun _ => rfl⟩
        cases h
        exact hmc
    | true =>
        have hlt : i < (tx.forget i).flowsInfo.length := by
          have hfields : (tx.forget i).flowsInfo = tx.flowsInfo := by
            unfold FlowsTransmitter.forget
            split <;> rfl
          rw [hfields]
          exact (List.getElem?_eq_some_iff.mp hinfo).1
        have hgone : (tx.forget i).receiverGone = tx.receiverGone := by
          unfold FlowsTransmitter.forget
          split <;> rfl
        rw [if_pos rfl, FlowsTransmitter.removeFlowInternal, if_pos hlt, FlowsTransmitter.send]
        dsimp only
        rw [hgone]
        cases tx.receiverGone with
        | false => exact ⟨fun _ => Or.inl rfl, fun _ => rfl⟩
        | true =>
            refine ⟨fun h => Bool.noConfusion h, fun h => ?_⟩
            rcases h with h | h
            · cases h
            · rw [h info rfl] at hmc
              cases hmc

/-- What `remove_flow_internal` does to a bundle in the table. -/
theorem removeFlowInternal_fields {i : Nat} {bundle : Bundle}
    (hb : w.bundles[i]? = some (some bundle)) (ignoreNonexisting : Bool) :
    ∃ w' r, w.removeFlowInternal dev i ignoreNonexisting = (w', r) ∧
      w'.bundles = w.bundles.set i none ∧ w'.dstAddrs = w.dstAddrs ∧ w'.nextCell = w.nextCell ∧
      w'.tasks = w.tasks ∧ w'.shouldWork = w.shouldWork ∧
      (w.Clears i → w'.multicastsByChannel =
        ReverseIndex.eraseAll w.multicastsByChannel bundle.localChannelIndices) ∧
      (¬ w.Clears i → w'.multicastsByChannel = w.multicastsByChannel) := by
  unfold TransmitMulticasts.removeFlowInternal
  simp only [hb]
  cases htx : w.flowsTx with
  | none =>
      refine ⟨_, _, rfl, rfl, rfl, rfl, rfl, rfl, ?_, fun _ => rfl⟩
      rintro ⟨_, t, ht, _⟩
      rw [htx] at ht
      cases ht
  | some t =>
      cases hwork : w.shouldWork with
      | false =>
          refine ⟨_, _, rfl, rfl, rfl, rfl, rfl, rfl, ?_, fun _ => rfl⟩
          rintro ⟨hf, _⟩
          rw [hwork] at hf
          cases hf
      | true =>
          have hclears : w.Clears i ↔ (t.tx.removeMulticastFlow i).isSome = true := by
            rw [removeMulticastFlow_isSome]
            constructor
            · rintro ⟨_, t', ht', h⟩
              rw [htx] at ht'
              cases ht'
              exact h
            · exact fun h => ⟨hwork, t, htx, h⟩
          rw [hclears]
          simp only [if_true, removeBundle]
          cases hrun : t.tx.removeMulticastFlow i with
          | none => exact ⟨_, _, rfl, rfl, rfl, rfl, rfl, rfl, nofun, fun _ => rfl⟩
          | some r =>
              refine ⟨_, _, rfl, ?_⟩
              split <;> exact ⟨rfl, rfl, rfl, rfl, rfl, fun _ => rfl, fun hf => absurd rfl hf⟩

/-- The map after taking a bundle out of the table is the index of the others
if and only if it may be removed. -/
theorem MapInv.removeFlowInternal_iff (h : w.MapInv) {i : Nat} {bundle : Bundle}
    (hb : w.bundles[i]? = some (some bundle)) (ignoreNonexisting : Bool) :
    (w.removeFlowInternal dev i ignoreNonexisting).1.Indexed ↔ w.MayRemove i bundle := by
  obtain ⟨w', r, hrun, hbundles, hdst, _, _, _, hclears, hleaves⟩ :=
    @removeFlowInternal_fields dev w i bundle hb ignoreNonexisting
  rw [hrun, Indexed, activeById_remove hbundles hdst]
  by_cases hc : w.Clears i
  · rw [hclears hc, h.indexed.eraseAll_iff (activeById_cases hb)]
    constructor
    · refine fun hdisjoint => ⟨fun _ j other hne hactive c hmem => ?_, fun hf => absurd hc hf⟩
      exact hdisjoint (j + 1) _ (fun heq => hne (Nat.succ.inj heq))
        (activeById_eq_some_iff.mpr ⟨j, other, rfl, hactive, rfl⟩) c hmem
    · rintro ⟨hdisjoint, _⟩ id l hne hl c hmem
      obtain ⟨j, other, rfl, hactive, rfl⟩ := activeById_eq_some_iff.mp hl
      exact hdisjoint hc j other (fun heq => hne (congrArg (· + 1) heq)) hactive c hmem
  · rw [hleaves hc, h.indexed.drop_iff]
    constructor
    · exact fun hnot => ⟨fun hf => absurd hf hc, fun _ => hnot⟩
    · exact fun hmay => hmay.leaves hc

theorem MapInv.removeFlowInternal (h : w.MapInv) {i : Nat}
    (hmay : ∀ bundle, w.bundles[i]? = some (some bundle) → w.MayRemove i bundle)
    (ignoreNonexisting : Bool) : (w.removeFlowInternal dev i ignoreNonexisting).1.MapInv := by
  rcases hb : w.bundles[i]? with _ | _ | bundle
  · unfold TransmitMulticasts.removeFlowInternal
    simp only [hb]
    exact h.congr rfl rfl rfl rfl fun _ hmem => hmem
  · unfold TransmitMulticasts.removeFlowInternal
    simp only [hb]
    exact h
  · have hindexed := (@MapInv.removeFlowInternal_iff dev w h i bundle hb ignoreNonexisting).mpr
      (hmay bundle hb)
    obtain ⟨w', r, hrun, hbundles, hdst, hnext, htasks, _⟩ :=
      @removeFlowInternal_fields dev w i bundle hb ignoreNonexisting
    rw [hrun] at hindexed ⊢
    exact h.remove hbundles hdst hnext htasks hindexed

/-- After the shutdown has begun nothing is cleared. -/
theorem removeFlowInternal_stopped (hwork : w.shouldWork = false) (i : Nat)
    (ignoreNonexisting : Bool) :
    (w.removeFlowInternal dev i ignoreNonexisting).1.shouldWork = false ∧
      (w.removeFlowInternal dev i ignoreNonexisting).1.multicastsByChannel =
        w.multicastsByChannel := by
  unfold TransmitMulticasts.removeFlowInternal
  rcases w.bundles[i]? with _ | _ | bundle
  · exact ⟨hwork, rfl⟩
  · exact ⟨hwork, rfl⟩
  · dsimp only
    rw [hwork]
    cases w.flowsTx with
    | none => exact ⟨rfl, rfl⟩
    | some t => exact ⟨rfl, rfl⟩

/-- A shutdown while the map is empty. -/
theorem MapInv.shutdown (h : w.MapInv) (hempty : ∀ c, w.multicastsByChannel c = none) :
    (w.shutdown dev).MapInv := by
  suffices hfold : ∀ (is : List Nat) (w : TransmitMulticasts), w.MapInv → w.shouldWork = false →
      (∀ c, w.multicastsByChannel c = none) →
      (is.foldl (fun w i => (w.removeFlowInternal dev i true).1) w).MapInv from
    hfold _ _ (h.congr rfl rfl rfl rfl fun _ hmem => hmem) rfl hempty
  intro is
  induction is with
  | nil => exact fun w h _ _ => h
  | cons i is ih =>
      intro w h hwork hempty
      have hclears : ¬ w.Clears i := by
        rintro ⟨hf, _⟩
        rw [hwork] at hf
        cases hf
      have hmay : ∀ bundle, w.bundles[i]? = some (some bundle) → w.MayRemove i bundle := by
        refine fun bundle _ => ⟨fun hf => absurd hf hclears, fun _ c p hp => ?_⟩
        rw [hempty c] at hp
        cases hp
      rw [List.foldl_cons]
      refine ih _ (h.removeFlowInternal hmay true) ?_ ?_
      · rw [(removeFlowInternal_stopped hwork i true).1]
      · rw [(removeFlowInternal_stopped hwork i true).2]
        exact hempty

/-! ## Every run -/

theorem MapInv.loadFlow (h : w.MapInv) (saved : SavedMulticastTXFlow) (draw : MulticastDraw) :
    (w.loadFlow dev saved draw).MapInv := by
  unfold TransmitMulticasts.loadFlow
  split
  · exact h
  split
  · exact h.addFlowInternal _ _ _ draw
  · exact h

theorem MapInv.checkCreate (h : w.MapInv) (flowId : Nat) (chs : List (Option Nat)) :
    (w.checkCreate flowId chs).MapInv := by
  unfold TransmitMulticasts.checkCreate
  split
  · exact h
  split
  · exact h
  split
  · exact h
  · exact h.congr rfl rfl rfl rfl fun _ hmem => hmem

theorem MapInv.addFlow (h : w.MapInv) (draw : MulticastDraw) : (w.addFlow dev draw).MapInv := by
  unfold TransmitMulticasts.addFlow
  split
  · have h' : MapInv { w with creating := none } := h.congr rfl rfl rfl rfl fun _ hmem => hmem
    exact h'.addFlowInternal _ _ _ draw
  · exact h

/-- Trying another address touches neither the bundles nor the map. -/
theorem MapInv.retry (h : w.MapInv) {k : Nat} {task : GraceTask} (htask : w.tasks[k]? = some task)
    (t : TxTables) (draw : MulticastDraw) : ((w.retry dev t k task draw).getD w).MapInv := by
  have hmem := List.mem_of_getElem? htask
  have hend : ∀ task' ∈ w.tasks.eraseIdx k, task' ∈ w.tasks := fun _ => List.mem_of_mem_eraseIdx
  unfold TransmitMulticasts.retry
  dsimp only
  split
  · exact h.congr rfl rfl rfl rfl hend
  · next tx _ _ =>
      cases hdraw : tx.randomMulticastDestination draw.addresses with
      | none => exact h
      | some dst =>
          obtain ⟨dstAddr, dstPort⟩ := dst
          simp only [Option.map_some, Option.getD_some]
          split
          · obtain ⟨h1, h2, h3, h4, h5, h6⟩ := h
            have hset : ∀ task' ∈ w.tasks.set k { task with dstAddr := dstAddr, dstPort := dstPort },
                task' ∈ w.tasks ∨ task' = { task with dstAddr := dstAddr, dstPort := dstPort } :=
              fun _ => List.mem_or_eq_of_mem_set
            refine ⟨h1, h2, fun task' hm => ?_, fun task' hm => ?_, fun task' hm => ?_, h6⟩ <;>
              rcases hset task' hm with hold | rfl
            · exact h3 task' hold
            · exact h3 task hmem
            · exact h4 task' hold
            · exact (randomMulticastDestination_ne_zero hdraw).1
            · exact h5 task' hold
            · exact h5 task hmem
          · exact h.congr rfl rfl rfl rfl hend

theorem MapInv.complete (h : w.MapInv) (k : Nat) (ok : Bool) (draw : MulticastDraw)
    (hmay : ∀ task, w.tasks[k]? = some task → w.flowsTx.isSome → w.shouldWork = true → ok = true →
      w.MayActivate task) : (w.complete dev k ok draw).MapInv := by
  unfold TransmitMulticasts.complete
  cases htask : w.tasks[k]? with
  | none => exact h
  | some task =>
      have hend : MapInv { w with tasks := w.tasks.eraseIdx k } :=
        h.congr rfl rfl rfl rfl fun _ => List.mem_of_mem_eraseIdx
      dsimp only
      split
      · exact hend
      next t htx =>
      split
      · next hwork =>
          split
          · next hok => exact h.activate htask (hmay task htask (by rw [htx]; rfl) hwork hok) t
          · exact h.retry htask t draw
      · exact hend

theorem MapInv.step (h : w.MapInv) (sampleRate : BitVec 32) {e : MulticastEvent}
    (htidy : w.Tidy e) : (w.step dev sampleRate e).MapInv := by
  cases e with
  | load saved draw =>
      rw [TransmitMulticasts.step]
      split
      · exact h
      · exact h.loadFlow saved draw
  | publish =>
      rw [TransmitMulticasts.step]
      split
      · exact h.congr rfl rfl rfl rfl fun _ hmem => hmem
      · exact h
  | check flowId chs =>
      rw [TransmitMulticasts.step]
      split
      · exact h.checkCreate flowId chs
      · exact h
  | create draw =>
      rw [TransmitMulticasts.step]
      split
      · exact h.addFlow draw
      · exact h.congr rfl rfl rfl rfl fun _ hmem => hmem
  | delete i =>
      rw [TransmitMulticasts.step]
      split
      · next hfree =>
          rw [Bool.and_eq_true, Option.isNone_iff_eq_none] at hfree
          exact h.removeFlowInternal (htidy hfree.1 hfree.2) false
      · exact h
  | grace k used₁ used₂ draw =>
      refine h.complete k _ draw fun task htask htx hwork hok => ?_
      rw [Bool.and_eq_true, Bool.not_eq_true', Bool.not_eq_true'] at hok
      have hfalse : ∀ {o : Option Bool}, o.getD true = false → o = some false := by
        intro o ho
        cases o with
        | none => cases ho
        | some b => exact congrArg some ho
      exact htidy task htask htx hwork (hfalse hok.1) (hfalse hok.2)
  | unicast c => exact h.congr rfl rfl rfl rfl fun _ hmem => hmem
  | drain now => exact h.congr rfl rfl rfl rfl fun _ hmem => hmem
  | expire slot => exact h.congr rfl rfl rfl rfl fun _ hmem => hmem
  | shutdown =>
      rw [TransmitMulticasts.step]
      split
      · next hpublished => exact h.shutdown (htidy hpublished)
      · exact h
  | stop =>
      rw [TransmitMulticasts.step]
      split
      · exact h
      · exact h.congr rfl rfl rfl rfl fun _ hmem => hmem

theorem MapInv.run (h : w.MapInv) (sampleRate : BitVec 32) {events : List MulticastEvent}
    (htidy : TidyRun dev sampleRate w events) : (w.run dev sampleRate events).MapInv := by
  induction events generalizing w with
  | nil => exact h
  | cons e events ih => exact ih (h.step sampleRate htidy.1) htidy.2

theorem new_mapInv (t : TxTables) : (new t).MapInv := by
  have hnone : ∀ (i : Nat) (bundle : Bundle), (new t).bundles[i]? ≠ some (some bundle) := by
    intro i bundle hi
    have hmem : some bundle ∈ List.replicate MAX_FLOWS none := List.mem_of_getElem? hi
    cases (List.mem_replicate.mp hmem).2
  have hactive : ∀ id, (new t).activeById id = none := by
    intro id
    refine Option.eq_none_iff_forall_ne_some.mpr fun l hl => ?_
    obtain ⟨i, bundle, _, hactive, _⟩ := activeById_eq_some_iff.mp hl
    exact hnone i bundle hactive.1
  refine ⟨⟨fun c => ?_, nofun⟩, fun i bundle hi => absurd hi (hnone i bundle), nofun, nofun, nofun,
    fun _ _ => rfl⟩
  constructor
  · exact nofun
  · rintro ⟨id, l, hl, _⟩
    rw [hactive id] at hl
    cases hl

/-- The map matches the activated bundles at every point of a tidy run. -/
theorem map_matches (dev : MulticastDevice) (sampleRate : BitVec 32) (flags : Flag → Bool)
    (events : List MulticastEvent)
    (htidy : TidyRun dev sampleRate (new (TxTables.start flags)) events) :
    (run dev sampleRate (new (TxTables.start flags)) events).MapMatches :=
  ((new_mapInv _).run sampleRate htidy).indexed.mapMatches

end

/-! ## Bundles of a device with two channels -/

def twoOutputs : MulticastDevice := ⟨24, 2⟩

def drawn (y : Byte) : MulticastDraw := ⟨[(1, y)], ⟨7, true⟩⟩

def twoOutputsRun (events : List MulticastEvent) : TransmitMulticasts :=
  run twoOutputs 48000 (new (TxTables.start fun _ => false)) events

/-- Bundle 1 is created, activated and deleted. -/
def oneBundle : List MulticastEvent :=
  [.publish, .check 1 [some 0], .create (drawn 1),
    .grace 0 (some false) (some false) (drawn 3), .delete 0]

theorem map_matches_oneBundle : (twoOutputsRun oneBundle).MapMatches := by
  refine map_matches twoOutputs 48000 (fun _ => false) oneBundle
    ⟨trivial, trivial, trivial, fun task htask _ _ _ _ => ?_,
      fun _ _ bundle hb => ⟨?_, ?_⟩, trivial⟩
  · have hat : (twoOutputsRun (oneBundle.take 3)).tasks[0]? =
        some ⟨0, [some 0], 0, FlowsTransmitter.multicastAddress (1, 1), MEDIA_PORT⟩ := by
      decide
    have hb : (twoOutputsRun (oneBundle.take 3)).bundles[0]? = some (some ⟨[some 0], 0⟩) := by
      decide
    obtain rfl := Option.some.inj (hat.symm.trans htask)
    exact Or.inl ⟨_, hb, rfl⟩
  · rintro _ i other hne ⟨hi, _⟩
    have hbundles : (twoOutputsRun (oneBundle.take 4)).bundles =
        some ⟨[some 0], 0⟩ :: List.replicate 31 none := by
      decide
    obtain ⟨i, rfl⟩ := Nat.exists_eq_succ_of_ne_zero hne
    have hmem : some other ∈ List.replicate 31 (none : Option Bundle) := by
      have hi' := (congrArg (·[i + 1]?) hbundles).symm.trans hi
      exact List.mem_of_getElem? hi'
    cases (List.mem_replicate.mp hmem).2
  · intro hnot
    have hopen : (twoOutputsRun (oneBundle.take 4)).flowsTx.map (·.tx.receiverGone) = some false := by
      decide
    obtain ⟨t, ht, hgone⟩ := Option.map_eq_some_iff.mp hopen
    exact absurd ⟨by decide, t, ht, Or.inl hgone⟩ hnot

/-- Bundles 1 and 2 carry channel 0 and are activated. -/
def sharedChannel : List MulticastEvent :=
  [.publish, .check 1 [some 0], .create (drawn 1), .check 2 [some 1, some 0], .create (drawn 2),
    .grace 0 (some false) (some false) (drawn 3), .grace 0 (some false) (some false) (drawn 3)]

/-- Bundle 1 is deleted: bundle 2 carries channel 0 still, and the map has lost it. -/
theorem shared_channel_lost :
    ¬ (twoOutputsRun (sharedChannel ++ [.delete 0])).MapMatches := by
  intro h
  have hactive : (twoOutputsRun (sharedChannel ++ [.delete 0])).IsActive 1 ⟨[some 1, some 0], 1⟩ := by
    constructor
    · decide
    · decide
  have hlost : (twoOutputsRun (sharedChannel ++ [.delete 0])).multicastsByChannel 0 = none := by
    decide
  have hsome := (h.entry 0).mpr ⟨1, _, hactive, by decide⟩
  rw [hlost] at hsome
  cases hsome

end TransmitMulticasts

end Inferno
