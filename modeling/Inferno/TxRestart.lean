import Mathlib.Data.List.Sigma
import Inferno.MulticastTables
import Inferno.TxSaved
import Inferno.TxTurns

/-!
# What a restart brings back

The unicast flows and the bundles are stored in a file each. When the device
starts again, `DeviceServer::transmit` loads the unicast flows into a fresh
`FlowsTransmitter`, which gives them the indices from 0 on, and then the bundles,
which ask for the indices they had. Nothing is stored of a flow's packets, so
that every unicast flow comes back with `FPP_MAX_ADVERTISED` samples of three
bytes.

`restored_iff` says for every reachable transmitter when all of it comes back.
-/

namespace Inferno

/-! ## Adding to a transmitter at rest -/

namespace FlowsTransmitter

/-- The thread is there, and no flow waits to be removed by a scan. -/
structure Settled (slots : List (Option Flow)) (tx : FlowsTransmitter) : Prop where
  together : tx.Together slots
  receiver : tx.receiverGone = false
  owned : tx.core.Owned slots
  awake : ∀ (id : Nat) (flow : FlowData) (info : FlowInfo), tx.flows id = some flow →
    tx.flowsInfo[id]? = some (some info) → info.isMulticast = false →
      tx.flags flow.expired = false

section

variable {slots : List (Option Flow)} {tx : FlowsTransmitter}

theorem Settled.not_expired (h : tx.Settled slots) (id : Nat) : tx.isExpired id ≠ some true := by
  intro hexp
  obtain ⟨flow, hflow⟩ := Option.isSome_iff_exists.mp (isExpired_live hexp)
  obtain ⟨info, hinfo⟩ := h.together.tables.info id flow hflow
  unfold isExpired at hexp
  rw [hflow] at hexp
  dsimp only at hexp
  rw [hinfo] at hexp
  cases hmc : info.isMulticast with
  | true => simp [hmc] at hexp
  | false => simp [h.awake id flow info hflow hinfo hmc] at hexp

theorem Settled.scanExpired (h : tx.Settled slots) : tx.scanExpired = some tx := by
  obtain ⟨ids, hids, _, _⟩ := h.together.tables.expiredIds (List.range MAX_FLOWS)
  have hnil : ids = [] := List.eq_nil_iff_forall_not_mem.mpr
    fun id hid => h.not_expired id ((expiredIds_mem hids id).mp hid).2
  rw [FlowsTransmitter.scanExpired, hids, hnil]
  rfl

/-- A free index, and nothing is known at it. -/
theorem Tables.info_of_free (h : tx.Tables) {id : Nat} (hlt : id < MAX_FLOWS)
    (hfree : tx.flows id = none) : tx.flowsInfo[id]? = some none := by
  rcases hi : tx.flowsInfo[id]? with _ | _ | info
  · have hge := List.getElem?_eq_none_iff.mp hi
    rw [h.length] at hge
    exact absurd hlt (Nat.not_lt.mpr hge)
  · rfl
  · have hlive := h.live id info hi
    rw [hfree] at hlive
    cases hlive

/-- A flow for a new destination goes in at the index that is chosen. -/
theorem Settled.addFlow_new (h : tx.Settled slots) {info : FlowInfo}
    (hnew : tx.ipPortToId info.dst = none) {requested : Option Nat} {id : Nat} {n : BitVec 32}
    (hchoose : chooseIndex requested (MAX_FLOWS + 1) tx = some ({ tx with flowSeqId := n }, .ok id))
    (fpp bytesPerSample : Nat) (isMulticast : Bool) (cookie : BitVec 16) :
    ∃ r, tx.addFlow info fpp bytesPerSample requested isMulticast ⟨cookie, true⟩ =
      some ((inserted { tx with flowSeqId := n } info fpp bytesPerSample isMulticast cookie
        id).saveState, .ok r) := by
  obtain ⟨_, hfree⟩ := chooseIndex_cases hchoose
  obtain ⟨_, hlt⟩ := hfree id rfl
  rw [h.together.tables.length, or_self] at hlt
  refine ⟨(id, makeHandle id cookie), ?_⟩
  unfold FlowsTransmitter.addFlow
  simp only [hnew, h.scanExpired, hchoose, if_true, Option.bind_eq_bind, Option.bind_some]
  rw [insertFlow_eq (by exact h.receiver) (by exact h.together.tables.length ▸ hlt)]

/-- The transmitter with a flow more. -/
structure AddedAt (tx tx' : FlowsTransmitter) (info : FlowInfo) (format : FlowFormat)
    (id : Nat) : Prop where
  flows : ∀ id', id' ≠ id → tx'.flows id' = tx.flows id'
  infos : tx'.flowsInfo = tx.flowsInfo.set id (some info)
  dst : tx'.ipPortToId = Function.update tx.ipPortToId info.dst (some id)
  formats : ∀ p, pending p tx'.commands = Function.update (pending p tx.commands) id (some format)

theorem Settled.inserted (h : tx.Settled slots) {info : FlowInfo}
    (hnew : tx.ipPortToId info.dst = none) {id : Nat} (hlt : id < MAX_FLOWS)
    (hfree : tx.flows id = none) (n : BitVec 32) (fpp bytesPerSample : Nat) {isMulticast : Bool}
    (hmc : info.isMulticast = isMulticast) (cookie : BitVec 16) :
    (FlowsTransmitter.inserted { tx with flowSeqId := n } info fpp bytesPerSample isMulticast cookie
        id).saveState.Settled slots ∧
      AddedAt tx (FlowsTransmitter.inserted { tx with flowSeqId := n } info fpp bytesPerSample
        isMulticast cookie id).saveState info ⟨fpp, bytesPerSample⟩ id := by
  have hlen : id < tx.flowsInfo.length := h.together.tables.length ▸ hlt
  have htogether := @Together.insertFlow slots { tx with flowSeqId := n }
    (h.together.congr rfl rfl rfl rfl rfl) info hnew id hlt hfree fpp bytesPerSample isMulticast
    cookie
  rw [insertFlow_eq (by exact h.receiver) (by exact hlen)] at htogether
  obtain ⟨hf, ha, hi, hc, hg, hb⟩ := saveState_fields (FlowsTransmitter.inserted
    { tx with flowSeqId := n } info fpp bytesPerSample isMulticast cookie id)
  refine ⟨⟨htogether, hg.trans h.receiver, ?_, fun id' flow info' hflow hinfo hnot => ?_⟩,
    ⟨fun id' hne => ?_, hi, ha, fun p => ?_⟩⟩
  · rw [saveState_core]
    exact h.owned.apply (.insert id cookie info.dst info.localChannelIndices fpp bytesPerSample
      isMulticast)
  · rw [hf] at hflow
    rw [hi] at hinfo
    rw [hb]
    simp only [FlowsTransmitter.inserted] at hflow hinfo ⊢
    by_cases hne : id' = id
    · rw [hne, Function.update_self] at hflow
      rw [hne, List.getElem?_set_self hlen] at hinfo
      cases hflow
      cases hinfo
      rw [Function.update_self, ← hmc, hnot]
    · rw [Function.update_of_ne hne] at hflow
      rw [List.getElem?_set_ne (Ne.symm hne)] at hinfo
      obtain ⟨owner, _, _, howner⟩ := h.owned
      have hflag : flow.expired ≠ tx.nextFlag := Nat.ne_of_lt (howner id' flow hflow).1
      rw [Function.update_of_ne hflag]
      exact h.awake id' flow info' hflow hinfo hnot
  · rw [hf]
    exact Function.update_of_ne hne _ _
  · rw [hc]
    exact pending_append p tx.commands _

/-- Nothing happens if the index that is asked for is taken. -/
theorem Settled.addFlow_busy (h : tx.Settled slots) {info : FlowInfo}
    (hnew : tx.ipPortToId info.dst = none) {id : Nat} (hlive : (tx.flows id).isSome = true)
    (fpp bytesPerSample : Nat) (isMulticast : Bool) (env : AddFlowEnv) :
    tx.addFlow info fpp bytesPerSample (some id) isMulticast env =
      some (tx, .error .resourceBusy) := by
  unfold FlowsTransmitter.addFlow
  simp only [hnew, h.scanExpired, chooseIndex, hlive, if_true, Option.bind_eq_bind,
    Option.bind_some]

/-- A bundle's flow for a destination that has one takes that one's place. -/
theorem Settled.addFlow_old (h : tx.Settled slots) {info : FlowInfo}
    (hmc : info.isMulticast = true) {j : Nat} (hip : tx.ipPortToId info.dst = some j)
    (fpp bytesPerSample : Nat) (requested : Option Nat) (isMulticast : Bool) (env : AddFlowEnv) :
    ∃ tx' r, tx.addFlow info fpp bytesPerSample requested isMulticast env = some (tx', r) ∧
      tx'.Settled slots ∧ tx'.flows = tx.flows ∧ tx'.ipPortToId = tx.ipPortToId ∧
      tx'.flowsInfo = tx.flowsInfo.set j (some info) ∧
      ∀ p, pending p tx'.commands = pending p tx.commands := by
  obtain ⟨flow, hflow, _⟩ := h.together.tables.addr _ _ hip
  have hlt := h.together.tables.lt hflow
  have hlen : j < tx.flowsInfo.length := h.together.tables.length ▸ hlt
  have htogether := h.together.call (.addFlow info fpp bytesPerSample requested isMulticast env)
  have hrun := addFlow_told h.together.tables h.receiver hip hflow fpp bytesPerSample requested
    isMulticast env
  rw [TxCall.leaves, hrun] at htogether
  obtain ⟨hf, ha, hi, hc, hg, hb⟩ := saveState_fields { tx with
    commands := tx.commands ++ [.setChannels j info.localChannelIndices]
    flowsInfo := tx.flowsInfo.set j (some info) }
  refine ⟨_, _, hrun, ⟨htogether, hg.trans h.receiver, ?_,
    fun id flow' info' hflow' hinfo' hnot => ?_⟩, hf, ha, hi, fun p => ?_⟩
  · rw [saveState_core]
    exact h.owned.apply (.tell j info.localChannelIndices)
  · rw [hf] at hflow'
    rw [hi] at hinfo'
    rw [hb]
    by_cases hne : id = j
    · rw [hne, List.getElem?_set_self hlen] at hinfo'
      cases hinfo'
      rw [hmc] at hnot
      cases hnot
    · rw [List.getElem?_set_ne (Ne.symm hne)] at hinfo'
      exact h.awake id flow' info' hflow' hinfo' hnot
  · rw [hc]
    exact pending_append p tx.commands _

end

/-! ## The unicast flows -/

/-- The information of a restored flow. -/
def restoredInfo (saved : SavedTxFlow) (dstAddr : BitVec 32) : FlowInfo where
  rxHostname := some "restored"
  rxFlowName := none
  dstAddr := dstAddr
  dstPort := saved.multicastPort
  localChannelIndices := saved.channelIndices

/-- One flow of `load_state`; an error of `add_flow` is only logged. -/
def loadFlow (tx : FlowsTransmitter) (saved : SavedTxFlow) (cookie : BitVec 16) :
    Option FlowsTransmitter :=
  if saved.flowId = 0 ∨ saved.channelIndices.isEmpty then some tx
  else
    match saved.multicastAddr with
    | some dstAddr =>
        (tx.addFlow (restoredInfo saved dstAddr) FPP_MAX_ADVERTISED 3 none false
          ⟨cookie, true⟩).map Prod.fst
    | none => some tx

/-- `load_state`; the cookies are drawn, one for each saved flow. -/
def loadState (tx : FlowsTransmitter) (flows : List SavedTxFlow) (cookie : Nat → BitVec 16) :
    Option FlowsTransmitter :=
  flows.foldlM (fun tx saved => tx.loadFlow saved (cookie saved.flowId)) tx

/-- What every restored unicast flow is sent as. -/
def RESTORED_FORMAT : FlowFormat := ⟨FPP_MAX_ADVERTISED, 3⟩

/-- So far the flows with this information have been loaded. -/
structure Loaded (slots : List (Option Flow)) (tx : FlowsTransmitter) (infos : List FlowInfo) :
    Prop where
  settled : tx.Settled slots
  seq : tx.flowSeqId = BitVec.ofNat 32 infos.length
  info : ∀ (id : Nat) (info : FlowInfo),
    tx.flowsInfo[id]? = some (some info) ↔ infos[id]? = some info
  format : ∀ id, id < infos.length →
    pending (fun _ => none) tx.commands id = some RESTORED_FORMAT

section

variable {slots : List (Option Flow)} {tx : FlowsTransmitter} {infos : List FlowInfo}

theorem Loaded.free (h : Loaded slots tx infos) : tx.flows infos.length = none := by
  cases hflow : tx.flows infos.length with
  | none => rfl
  | some flow =>
      obtain ⟨info, hinfo⟩ := h.settled.together.tables.info _ flow hflow
      have hmem := (h.info _ info).mp hinfo
      rw [List.getElem?_eq_none (Nat.le_refl _)] at hmem
      cases hmem

/-- The destinations that are taken are those of the flows. -/
theorem Loaded.dst_iff (h : Loaded slots tx infos) (a : SocketAddr) :
    (tx.ipPortToId a).isSome ↔ a ∈ infos.map FlowInfo.dst := by
  have ht := h.settled.together
  constructor
  · intro hsome
    obtain ⟨id, hid⟩ := Option.isSome_iff_exists.mp hsome
    obtain ⟨flow, hflow, rfl⟩ := ht.tables.addr a id hid
    obtain ⟨info, hinfo⟩ := ht.tables.info id flow hflow
    rw [← ht.remote id flow info hflow hinfo]
    exact List.mem_map_of_mem (List.mem_of_getElem? ((h.info id info).mp hinfo))
  · intro hmem
    obtain ⟨info, hinfo, rfl⟩ := List.mem_map.mp hmem
    obtain ⟨id, hid⟩ := List.mem_iff_getElem?.mp hinfo
    have hinfo' := (h.info id info).mpr hid
    obtain ⟨flow, hflow⟩ := Option.isSome_iff_exists.mp (ht.tables.live id info hinfo')
    rw [ht.remote id flow info hflow hinfo', ht.tables.id id flow hflow]
    rfl

/-- The next flow gets the next index. -/
theorem Loaded.next (h : Loaded slots tx infos) (hlt : infos.length < MAX_FLOWS)
    {saved : SavedTxFlow} (hid : saved.flowId ≠ 0) (hchs : saved.channelIndices.isEmpty = false)
    {dstAddr : BitVec 32} (haddr : saved.multicastAddr = some dstAddr)
    (hnew : (restoredInfo saved dstAddr).dst ∉ infos.map FlowInfo.dst) (cookie : BitVec 16) :
    ∃ tx', tx.loadFlow saved cookie = some tx' ∧
      Loaded slots tx' (infos ++ [restoredInfo saved dstAddr]) := by
  have hdst : tx.ipPortToId (restoredInfo saved dstAddr).dst = none :=
    Option.not_isSome_iff_eq_none.mp fun hsome => hnew ((h.dst_iff _).mp hsome)
  have hmod : tx.flowSeqId.toNat % MAX_FLOWS = infos.length := by
    have hfits : infos.length < 2 ^ 32 := Nat.lt_trans hlt (by decide)
    rw [h.seq, BitVec.toNat_ofNat, Nat.mod_eq_of_lt hfits, Nat.mod_eq_of_lt hlt]
  have hchoose : chooseIndex none (MAX_FLOWS + 1) tx =
      some ({ tx with flowSeqId := tx.flowSeqId + 1 }, .ok infos.length) := by
    rw [chooseIndex]
    dsimp only
    rw [hmod, h.free]
    rfl
  obtain ⟨r, hadd⟩ := h.settled.addFlow_new hdst hchoose FPP_MAX_ADVERTISED 3 false cookie
  obtain ⟨hsettled, hadded⟩ := h.settled.inserted hdst hlt h.free (tx.flowSeqId + 1)
    FPP_MAX_ADVERTISED 3 (rfl : (restoredInfo saved dstAddr).isMulticast = false) cookie
  have hlen : infos.length < tx.flowsInfo.length := h.settled.together.tables.length ▸ hlt
  refine ⟨_, ?_, hsettled, ?_, fun id info => ?_, fun id hid' => ?_⟩
  · rw [loadFlow, if_neg (by simp [hid, hchs]), haddr]
    dsimp only
    rw [hadd]
    rfl
  · rw [List.length_append, List.length_singleton]
    show (saveState _).flowSeqId = _
    have hseq : ∀ tx : FlowsTransmitter, tx.saveState.flowSeqId = tx.flowSeqId := by
      intro tx
      simp only [saveState]
      split <;> rfl
    rw [hseq]
    show tx.flowSeqId + 1 = _
    rw [h.seq, BitVec.ofNat_add]
    rfl
  · rw [hadded.infos]
    rcases Nat.lt_trichotomy id infos.length with hlt' | rfl | hgt
    · rw [List.getElem?_set_ne (Nat.ne_of_gt hlt'), List.getElem?_append_left hlt', h.info]
    · rw [List.getElem?_set_self hlen, List.getElem?_append_right (Nat.le_refl _), Nat.sub_self]
      simp [eq_comm]
    · rw [List.getElem?_set_ne (Nat.ne_of_lt hgt), h.info, List.getElem?_eq_none (Nat.le_of_lt hgt),
        List.getElem?_eq_none (by rw [List.length_append, List.length_singleton]; exact hgt)]
  · rw [hadded.formats]
    rw [List.length_append, List.length_singleton] at hid'
    rcases Nat.lt_succ_iff_lt_or_eq.mp hid' with hlt' | rfl
    · rw [Function.update_of_ne (Nat.ne_of_lt hlt')]
      exact h.format id hlt'
    · exact Function.update_self _ _ _

/-- What a list of saved flows is restored to. -/
def restoredInfos (flows : List SavedTxFlow) : List FlowInfo :=
  flows.filterMap fun saved => saved.multicastAddr.map (restoredInfo saved)

/-- The list is loaded in order, if all of it is to be loaded and the
destinations differ. -/
theorem Loaded.all (h : Loaded slots tx infos) {flows : List SavedTxFlow}
    (hsaved : ∀ saved ∈ flows, saved.flowId ≠ 0 ∧ saved.channelIndices.isEmpty = false ∧
      saved.multicastAddr.isSome = true)
    (hlen : infos.length + flows.length ≤ MAX_FLOWS)
    (hnodup : ((infos ++ restoredInfos flows).map FlowInfo.dst).Nodup)
    (cookie : Nat → BitVec 16) :
    ∃ tx', tx.loadState flows cookie = some tx' ∧
      Loaded slots tx' (infos ++ restoredInfos flows) := by
  induction flows generalizing tx infos with
  | nil =>
      refine ⟨tx, rfl, ?_⟩
      rw [restoredInfos, List.filterMap_nil, List.append_nil]
      exact h
  | cons saved flows ih =>
      obtain ⟨⟨hid, hchs, haddr⟩, hrest⟩ := List.forall_mem_cons.mp hsaved
      obtain ⟨dstAddr, haddr⟩ := Option.isSome_iff_exists.mp haddr
      have hcons : restoredInfos (saved :: flows) =
          restoredInfo saved dstAddr :: restoredInfos flows := by
        rw [restoredInfos, List.filterMap_cons_some (by rw [haddr]; rfl)]
        rfl
      rw [List.length_cons] at hlen
      rw [hcons] at hnodup ⊢
      rw [List.append_cons] at hnodup ⊢
      have hnew : (restoredInfo saved dstAddr).dst ∉ infos.map FlowInfo.dst := by
        rw [List.map_append, List.map_append, List.nodup_append, List.nodup_append] at hnodup
        exact fun hmem => hnodup.1.2.2 _ hmem _ (by simp) rfl
      obtain ⟨tx₁, hload, h₁⟩ := h.next (by omega) hid hchs haddr hnew (cookie saved.flowId)
      obtain ⟨tx', hrun, h'⟩ := ih h₁ hrest
        (by rw [List.length_append, List.length_singleton]; omega) hnodup
      refine ⟨tx', ?_, h'⟩
      rw [loadState, List.foldlM_cons, hload]
      exact hrun

theorem start_loaded (flags : Flag → Bool) (stored : List SavedTxFlow) :
    Loaded (List.replicate MAX_FLOWS none) { start flags with savedTxFlows := stored } [] where
  settled := ⟨(start_together flags).congr rfl rfl rfl rfl rfl, rfl, TxTables.start_owned flags,
    fun _ _ _ hflow => by cases hflow⟩
  seq := rfl
  info := fun id info => by
    refine iff_of_false (fun hinfo => ?_) (by simp)
    have hlive := (start_together flags).tables.live id info hinfo
    cases hlive
  format := fun _ hid => absurd hid (Nat.not_lt_zero _)

end

end FlowsTransmitter

/-! ## What is saved of the unicast flows -/

/-- The flows that are saved, with their indices. -/
def savable (flowsInfo : List (Option FlowInfo)) : List (Nat × FlowInfo) :=
  flowsInfo.zipIdx.filterMap fun (info, id) => info.bind fun info =>
    if !info.isMulticast && !info.localChannelIndices.isEmpty then some (id, info) else none

theorem mem_savable {flowsInfo : List (Option FlowInfo)} {id : Nat} {info : FlowInfo} :
    (id, info) ∈ savable flowsInfo ↔ flowsInfo[id]? = some (some info) ∧
      info.isMulticast = false ∧ info.localChannelIndices.isEmpty = false := by
  constructor
  · intro h
    obtain ⟨⟨o, id'⟩, hmem, hsome⟩ := List.mem_filterMap.mp h
    obtain ⟨info', rfl, hif⟩ := Option.bind_eq_some_iff.mp hsome
    split at hif
    · next hboth =>
        cases hif
        simp only [Bool.and_eq_true, Bool.not_eq_true'] at hboth
        exact ⟨List.mem_zipIdx_iff_getElem?.mp hmem, hboth⟩
    · cases hif
  · rintro ⟨hinfo, hmc, hchs⟩
    refine List.mem_filterMap.mpr ⟨(some info, id), List.mem_zipIdx_iff_getElem?.mpr hinfo, ?_⟩
    simp only [Option.bind_some, hmc, hchs, Bool.not_false, Bool.and_self, if_true]

/-- What is picked from a list with indices, told by its index, is picked once. -/
theorem nodup_of_zipIdx {α β : Type} {g : α × Nat → Option β} {key : β → Nat}
    (hkey : ∀ a b, g a = some b → key b = a.2) (l : List α) :
    ((l.zipIdx.filterMap g).map key).Nodup := by
  have hsub : ∀ l : List (α × Nat), ((l.filterMap g).map key).Sublist (l.map Prod.snd) := by
    intro l
    induction l with
    | nil => exact List.Sublist.refl _
    | cons a l ih =>
        cases hg : g a with
        | none =>
            rw [List.filterMap_cons_none hg]
            exact ih.cons a.2
        | some b =>
            rw [List.filterMap_cons_some hg, List.map_cons, List.map_cons, hkey a b hg]
            exact ih.cons_cons a.2
  exact (hsub _).nodup (List.nodup_zipIdx_map_snd l)

theorem savable_ids_nodup (flowsInfo : List (Option FlowInfo)) :
    ((savable flowsInfo).map Prod.fst).Nodup := by
  refine nodup_of_zipIdx (fun a b hb => ?_) flowsInfo
  obtain ⟨info, _, hif⟩ := Option.bind_eq_some_iff.mp hb
  split at hif <;> cases hif
  rfl

theorem unicastFlows_eq (flowsInfo : List (Option FlowInfo)) :
    unicastFlows flowsInfo = (savable flowsInfo).map fun p =>
      ⟨p.1 + 1, p.2.localChannelIndices, some p.2.dstAddr, p.2.dstPort⟩ := by
  rw [unicastFlows, savable, List.map_filterMap]
  refine congrArg (List.filterMap · _) (funext fun p => ?_)
  obtain ⟨info, id⟩ := p
  cases info with
  | none => rfl
  | some info =>
      simp only [Option.bind_some]
      split <;> rfl

/-- Their information when they are restored. -/
def FlowInfo.restored (info : FlowInfo) : FlowInfo :=
  ⟨some "restored", none, info.dstAddr, info.dstPort, info.localChannelIndices⟩

theorem restoredInfos_unicastFlows (flowsInfo : List (Option FlowInfo)) :
    FlowsTransmitter.restoredInfos (unicastFlows flowsInfo) =
      (savable flowsInfo).map fun p => p.2.restored := by
  rw [unicastFlows_eq, FlowsTransmitter.restoredInfos, List.filterMap_map, ← List.filterMap_eq_map]
  rfl

/-- Flows of one transmitter go to different places. -/
theorem savable_dsts_nodup {slots : List (Option Flow)} {tx : FlowsTransmitter}
    (h : tx.Together slots) :
    ((savable tx.flowsInfo).map fun p => p.2.dst).Nodup := by
  refine List.Nodup.map_on ?_ (List.Nodup.of_map _ (savable_ids_nodup tx.flowsInfo))
  rintro ⟨id, info⟩ hmem ⟨id', info'⟩ hmem' heq
  obtain ⟨hinfo, _⟩ := mem_savable.mp hmem
  obtain ⟨hinfo', _⟩ := mem_savable.mp hmem'
  obtain ⟨flow, hflow⟩ := Option.isSome_iff_exists.mp (h.tables.live id info hinfo)
  obtain ⟨flow', hflow'⟩ := Option.isSome_iff_exists.mp (h.tables.live id' info' hinfo')
  have hid := h.tables.id id flow hflow
  have hid' := h.tables.id id' flow' hflow'
  rw [← h.remote id flow info hflow hinfo] at hid
  rw [← h.remote id' flow' info' hflow' hinfo', ← heq, hid] at hid'
  cases hid'
  rw [hinfo] at hinfo'
  cases hinfo'
  rfl

/-- Where a saved flow stands in the file. -/
def place (flowsInfo : List (Option FlowInfo)) (id : Nat) : Nat :=
  (savable flowsInfo).findIdx fun p => p.1 == id

theorem savable_place {flowsInfo : List (Option FlowInfo)} {id : Nat} {info : FlowInfo}
    (h : (id, info) ∈ savable flowsInfo) :
    (savable flowsInfo)[place flowsInfo id]? = some (id, info) := by
  have hlt : place flowsInfo id < (savable flowsInfo).length :=
    List.findIdx_lt_length_of_exists ⟨(id, info), h, by simp⟩
  obtain ⟨⟨id', info'⟩, hget⟩ : ∃ p, (savable flowsInfo)[place flowsInfo id]? = some p :=
    ⟨_, List.getElem?_eq_getElem hlt⟩
  obtain ⟨_, hfound⟩ := List.getElem?_eq_some_iff.mp hget
  have hid : ((savable flowsInfo)[place flowsInfo id].1 == id) = true :=
    List.findIdx_getElem (w := hlt)
  rw [hfound] at hid
  obtain rfl : id' = id := by simpa using hid
  obtain ⟨hinfo, _⟩ := mem_savable.mp h
  obtain ⟨hinfo', _⟩ := mem_savable.mp (List.mem_of_getElem? hget)
  rw [hinfo] at hinfo'
  cases hinfo'
  exact hget

theorem place_eq {flowsInfo : List (Option FlowInfo)} {id k : Nat} {info : FlowInfo}
    (h : (savable flowsInfo)[k]? = some (id, info)) : place flowsInfo id = k := by
  have hplace := savable_place (List.mem_of_getElem? h)
  have heq : ((savable flowsInfo).map Prod.fst)[place flowsInfo id]? =
      ((savable flowsInfo).map Prod.fst)[k]? := by
    rw [List.getElem?_map, List.getElem?_map, hplace, h]
  refine (List.getElem?_inj ?_ (savable_ids_nodup flowsInfo)).mp heq
  rw [List.length_map]
  exact (List.getElem?_eq_some_iff.mp hplace).1

/-! ## The bundles -/

namespace TransmitMulticasts

/-- What `save_state` stores of the bundles. -/
def savedMulticasts (w : TransmitMulticasts) : List SavedMulticastTXFlow :=
  w.bundles.zipIdx.filterMap fun (bundle, i) => bundle.map fun bundle =>
    { flowId := i + 1
      dstAddr := w.dstAddrs bundle.dstAddr
      localChannelIds := bundle.localChannelIndices.map fun
        | some index => index + 1
        | none => 0 }

/-- Loading the bundles; what is drawn is drawn for each saved id. -/
def loadState (dev : MulticastDevice) (w : TransmitMulticasts)
    (flows : List SavedMulticastTXFlow) (draw : Nat → MulticastDraw) : TransmitMulticasts :=
  flows.foldl (fun w saved => w.loadFlow dev saved (draw saved.flowId)) w

/-- Loading bundles at these indices changes this at most. -/
structure Loads (is : List Nat) (w w' : TransmitMulticasts) (t t' : TxTables) : Prop where
  tx : w'.flowsTx = some t'
  settled : t'.tx.Settled t'.slots
  slots : t'.slots = t.slots
  infos : ∀ j : Nat, t'.tx.flowsInfo[j]? = t.tx.flowsInfo[j]? ∨
    ∃ info, t'.tx.flowsInfo[j]? = some (some info) ∧ info.isMulticast = true
  dsts : ∀ a j, t.tx.ipPortToId a = some j → t'.tx.ipPortToId a = some j
  live : ∀ j, (t.tx.flows j).isSome → (t'.tx.flows j).isSome
  formats : ∀ p j, (t.tx.flows j).isSome →
    pending p t'.tx.commands j = pending p t.tx.commands j
  free : ∀ j, j ∉ is → t.tx.flows j = none → t'.tx.flows j = none
  bundles : ∀ j, j ∉ is → w'.bundles[j]? = w.bundles[j]?

variable {w w₁ w₂ : TransmitMulticasts} {t t₁ t₂ : TxTables}

theorem Loads.refl (htx : w.flowsTx = some t) (h : t.tx.Settled t.slots) : Loads [] w w t t :=
  ⟨htx, h, rfl, fun _ => Or.inl rfl, fun _ _ ha => ha, fun _ hj => hj, fun _ _ _ => rfl,
    fun _ _ hj => hj, fun _ _ => rfl⟩

theorem Loads.trans {is is' : List Nat} (h₁ : Loads is w w₁ t t₁) (h₂ : Loads is' w₁ w₂ t₁ t₂) :
    Loads (is ++ is') w w₂ t t₂ where
  tx := h₂.tx
  settled := h₂.settled
  slots := h₂.slots.trans h₁.slots
  infos j := by
    rcases h₂.infos j with heq | hmc
    · rw [heq]
      exact h₁.infos j
    · exact Or.inr hmc
  dsts a j ha := h₂.dsts a j (h₁.dsts a j ha)
  live j hj := h₂.live j (h₁.live j hj)
  formats p j hj := (h₂.formats p j (h₁.live j hj)).trans (h₁.formats p j hj)
  free j hj hnone := by
    rw [List.mem_append, not_or] at hj
    exact h₂.free j hj.2 (h₁.free j hj.1 hnone)
  bundles j hj := by
    rw [List.mem_append, not_or] at hj
    exact (h₂.bundles j hj.2).trans (h₁.bundles j hj.1)

/-- A multicast flow stays one. -/
theorem Loads.multicast {is : List Nat} (h : Loads is w w₁ t t₁) {j : Nat} {info : FlowInfo}
    (hinfo : t.tx.flowsInfo[j]? = some (some info)) (hmc : info.isMulticast = true) :
    ∃ info', t₁.tx.flowsInfo[j]? = some (some info') ∧ info'.isMulticast = true := by
  rcases h.infos j with heq | hmc'
  · exact ⟨info, heq.trans hinfo, hmc⟩
  · exact hmc'

theorem set_multicast {infos : List (Option FlowInfo)} {i : Nat} (hlt : i < infos.length)
    {info : FlowInfo} (hmc : info.isMulticast = true) (j : Nat) :
    (infos.set i (some info))[j]? = infos[j]? ∨
      ∃ info', (infos.set i (some info))[j]? = some (some info') ∧ info'.isMulticast = true := by
  by_cases hne : j = i
  · rw [hne, List.getElem?_set_self hlt]
    exact Or.inr ⟨info, rfl, hmc⟩
  · exact Or.inl (List.getElem?_set_ne (Ne.symm hne))

/-- The transmitter gets new data for a flow that it has. -/
theorem Loads.known {i j : Nat} {tx' : FlowsTransmitter} {info : FlowInfo}
    (htx : w₁.flowsTx = some { t with tx := tx' }) (hsettled : tx'.Settled t.slots)
    (hf : tx'.flows = t.tx.flows) (ha : tx'.ipPortToId = t.tx.ipPortToId)
    (hi : tx'.flowsInfo = t.tx.flowsInfo.set j (some info))
    (hp : ∀ p, pending p tx'.commands = pending p t.tx.commands)
    (hlt : j < t.tx.flowsInfo.length) (hmc : info.isMulticast = true)
    (hbundles : ∀ k, k ∉ [i] → w₁.bundles[k]? = w.bundles[k]?) :
    Loads [i] w w₁ t { t with tx := tx' } where
  tx := htx
  settled := hsettled
  slots := rfl
  infos k := by
    dsimp only
    rw [hi]
    exact set_multicast hlt hmc k
  dsts a k h := by
    dsimp only
    rw [ha]
    exact h
  live k h := by
    dsimp only
    rw [hf]
    exact h
  formats p k _ := congrFun (hp p) k
  free k _ h := by
    dsimp only
    rw [hf]
    exact h
  bundles := hbundles

/-- The transmitter gets a new flow at the index. -/
theorem Loads.added {i : Nat} {tx' : FlowsTransmitter} {info : FlowInfo} {format : FlowFormat}
    (htx : w₁.flowsTx = some { t with tx := tx' }) (hsettled : tx'.Settled t.slots)
    (hadded : FlowsTransmitter.AddedAt t.tx tx' info format i)
    (hnew : t.tx.ipPortToId info.dst = none) (hfree : t.tx.flows i = none)
    (hlt : i < t.tx.flowsInfo.length) (hmc : info.isMulticast = true)
    (hbundles : ∀ k, k ∉ [i] → w₁.bundles[k]? = w.bundles[k]?) :
    Loads [i] w w₁ t { t with tx := tx' } where
  tx := htx
  settled := hsettled
  slots := rfl
  infos k := by
    dsimp only
    rw [hadded.infos]
    exact set_multicast hlt hmc k
  dsts a k h := by
    dsimp only
    rw [hadded.dst, Function.update_of_ne]
    · exact h
    · rintro rfl
      rw [hnew] at h
      cases h
  live k h := by
    dsimp only
    rw [hadded.flows k]
    · exact h
    · rintro rfl
      rw [hfree] at h
      cases h
  formats p k h := by
    dsimp only
    rw [hadded.formats, Function.update_of_ne]
    rintro rfl
    rw [hfree] at h
    cases h
  free k hk h := by
    dsimp only
    rw [hadded.flows k fun heq => hk (List.mem_singleton.mpr heq), h]
  bundles := hbundles

/-- Where a saved bundle's flow is to go. -/
def loadDst (tx : FlowsTransmitter) (saved : SavedMulticastTXFlow) (draw : MulticastDraw) :
    Option (BitVec 32 × BitVec 16) :=
  if saved.dstAddr = 0 then tx.randomMulticastDestination draw.addresses
  else some (saved.dstAddr, MEDIA_PORT)

/-- Loading one bundle at its free place. -/
theorem loadFlow_eq (dev : MulticastDevice) {saved : SavedMulticastTXFlow} {draw : MulticastDraw}
    {i : Nat} (hid : saved.flowId = i + 1) (htx : w.flowsTx = some t)
    (hfree : w.bundles[i]? = some none) : w.loadFlow dev saved draw =
      match loadDst t.tx saved draw with
      | none => w
      | some (dstAddr, dstPort) =>
          let info := flowInfo dstAddr dstPort saved.channelIndices
          let (tx, returned) := addBundleFlow dev t.tx i info draw.flow
          let w := { w with flowsTx := some { t with tx := tx } }
          if returned then w.insertBundle i saved.channelIndices dstAddr dstPort else w.panic := by
  have hindex : w.loadIndex saved.flowId = some i := by
    rw [loadIndex, hid, Nat.add_sub_cancel, hfree]
  rw [loadFlow, if_neg (by rw [hid]; exact Nat.succ_ne_zero i), hindex]
  dsimp only
  rw [addFlowInternal, hfree]
  dsimp only
  rw [htx]
  rfl

/-- A bundle is loaded; its flow is there if its place and destination are new. -/
theorem load_step (dev : MulticastDevice) {saved : SavedMulticastTXFlow}
    (addresses : List (Byte × Byte)) (cookie : BitVec 16) {i : Nat} (hi : i < MAX_FLOWS)
    (hid : saved.flowId = i + 1) (htx : w.flowsTx = some t) (h : t.tx.Settled t.slots)
    (hfree : w.bundles[i]? = some none) :
    ∃ t', Loads [i] w (w.loadFlow dev saved ⟨addresses, ⟨cookie, true⟩⟩) t t' ∧
      match loadDst t.tx saved ⟨addresses, ⟨cookie, true⟩⟩ with
      | none => (w.loadFlow dev saved ⟨addresses, ⟨cookie, true⟩⟩).bundles[i]? = some none
      | some (dstAddr, dstPort) =>
          (t.tx.ipPortToId ⟨dstAddr, dstPort⟩ = none → t.tx.flows i = none →
            (∃ cell, (w.loadFlow dev saved ⟨addresses, ⟨cookie, true⟩⟩).bundles[i]? =
                some (some ⟨saved.channelIndices, cell⟩)) ∧
              t'.tx.flowsInfo =
                t.tx.flowsInfo.set i (some (flowInfo dstAddr dstPort saved.channelIndices)) ∧
              t'.tx.ipPortToId =
                Function.update t.tx.ipPortToId ⟨dstAddr, dstPort⟩ (some i)) ∧
          (t.tx.ipPortToId ⟨dstAddr, dstPort⟩ ≠ none → t'.tx.flows i = t.tx.flows i) := by
  rw [loadFlow_eq dev hid htx hfree]
  cases hdst : loadDst t.tx saved ⟨addresses, ⟨cookie, true⟩⟩ with
  | none =>
      obtain ⟨h1, h2, h3, h4, h5, h6, h7, h8, h9⟩ := Loads.refl htx h
      exact ⟨t, ⟨h1, h2, h3, h4, h5, h6, h7, fun j _ => h8 j List.not_mem_nil,
        fun j _ => h9 j List.not_mem_nil⟩, hfree⟩
  | some dst =>
      obtain ⟨dstAddr, dstPort⟩ := dst
      have hlt := (List.getElem?_eq_some_iff.mp hfree).1
      dsimp only
      generalize hinfo : flowInfo dstAddr dstPort saved.channelIndices = info
      have hmc : info.isMulticast = true := by
        rw [← hinfo]
        rfl
      have hgoes : info.dst = ⟨dstAddr, dstPort⟩ := by
        rw [← hinfo]
        rfl
      have hbundles : ∀ j, j ∉ [i] → (w.bundles.set i
          (some ⟨saved.channelIndices, w.nextCell⟩))[j]? = w.bundles[j]? := by
        intro j hj
        exact List.getElem?_set_ne fun heq => hj (List.mem_singleton.mpr heq.symm)
      cases hip : t.tx.ipPortToId info.dst with
      | some j =>
          obtain ⟨tx', r, hadd, hsettled, hf, ha, hi', hp⟩ := h.addFlow_old hmc hip
            FPP_MAX_ADVERTISED (dev.bitsPerSample / 8) (some i) true ⟨cookie, true⟩
          simp only [addBundleFlow, TxCall.leaves, hadd, Option.isSome_some, if_true]
          rw [hgoes] at hip
          obtain ⟨flow, hflow, _⟩ := h.together.tables.addr _ _ hip
          have hlen : j < t.tx.flowsInfo.length :=
            h.together.tables.length ▸ h.together.tables.lt hflow
          refine ⟨{ t with tx := tx' }, .known rfl hsettled hf ha hi' hp hlen hmc hbundles,
            fun hnone => ?_, fun _ => by rw [hf]⟩
          rw [hip] at hnone
          cases hnone
      | none =>
          cases hbusy : t.tx.flows i with
          | some flow =>
              have hadd := h.addFlow_busy hip (by rw [hbusy]; rfl) FPP_MAX_ADVERTISED
                (dev.bitsPerSample / 8) true ⟨cookie, true⟩
              simp only [addBundleFlow, TxCall.leaves, hadd, Option.isSome_some, if_true]
              refine ⟨t, ⟨rfl, h, rfl, fun _ => Or.inl rfl, fun _ _ ha => ha, fun _ hj => hj,
                fun _ _ _ => rfl, fun _ _ hj => hj, hbundles⟩, fun _ hnone => ?_, fun _ => hbusy⟩
              cases hnone
          | none =>
              have hchoose : FlowsTransmitter.chooseIndex (some i) (MAX_FLOWS + 1) t.tx =
                  some ({ t.tx with flowSeqId := t.tx.flowSeqId }, .ok i) := by
                rw [FlowsTransmitter.chooseIndex]
                simp only [hbusy, h.together.tables.info_of_free hi hbusy, Option.isSome_none,
                  Bool.false_eq_true, if_false]
              obtain ⟨r, hadd⟩ := h.addFlow_new hip hchoose FPP_MAX_ADVERTISED
                (dev.bitsPerSample / 8) true cookie
              obtain ⟨hsettled, hadded⟩ := h.inserted hip hi hbusy t.tx.flowSeqId
                FPP_MAX_ADVERTISED (dev.bitsPerSample / 8) hmc cookie
              have hlen : i < t.tx.flowsInfo.length := h.together.tables.length ▸ hi
              revert hadd hsettled hadded
              generalize (FlowsTransmitter.inserted _ _ _ _ _ _ _).saveState = tx'
              intro hadd hsettled hadded
              simp only [addBundleFlow, TxCall.leaves, hadd, Option.isSome_some, if_true]
              refine ⟨{ t with tx := tx' },
                .added rfl hsettled hadded hip hbusy hlen hmc hbundles,
                fun _ _ => ⟨⟨w.nextCell, List.getElem?_set_self hlt⟩, ?_, ?_⟩, fun hold => ?_⟩
              · dsimp only
                rw [hadded.infos, ← hinfo]
              · dsimp only
                rw [hadded.dst, hgoes]
              · rw [hgoes] at hip
                exact absurd hip hold

/-- Where a saved bundle's flow is to go when these destinations are taken. -/
def bundleDst (used : List SocketAddr) (saved : SavedMulticastTXFlow)
    (addresses : List (Byte × Byte)) : Option SocketAddr :=
  if saved.dstAddr = 0 then
    ((addresses.map FlowsTransmitter.multicastAddress).find? fun ip =>
      used.all fun a => decide (a ≠ ⟨ip, MEDIA_PORT⟩)).map fun ip => ⟨ip, MEDIA_PORT⟩
  else some ⟨saved.dstAddr, MEDIA_PORT⟩

/-- Each bundle goes where nothing that was loaded before it goes. -/
def DstsDiffer (addresses : Nat → List (Byte × Byte)) :
    List SocketAddr → List SavedMulticastTXFlow → Prop
  | _, [] => True
  | used, saved :: rest =>
      match bundleDst used saved (addresses saved.flowId) with
      | some dst => dst ∉ used ∧ DstsDiffer addresses (dst :: used) rest
      | none => False

theorem loadDst_eq {tx : FlowsTransmitter} {used : List SocketAddr}
    (hused : ∀ a, a ∈ used ↔ (tx.ipPortToId a).isSome) (saved : SavedMulticastTXFlow)
    (draw : MulticastDraw) :
    loadDst tx saved draw = (bundleDst used saved draw.addresses).map fun a => (a.ip, a.port) := by
  unfold loadDst bundleDst
  split
  · have hfree : (fun ip => !tx.destinationExists ⟨ip, MEDIA_PORT⟩) =
        fun ip => used.all fun a => decide (a ≠ ⟨ip, MEDIA_PORT⟩) := by
      funext ip
      rw [Bool.eq_iff_iff, List.all_eq_true, FlowsTransmitter.destinationExists, Bool.not_eq_true',
        Bool.eq_false_iff, ne_eq, ← hused]
      constructor
      · intro hnot a ha
        exact decide_eq_true fun heq => hnot (heq ▸ ha)
      · intro hall hmem
        exact of_decide_eq_true (hall _ hmem) rfl
    rw [FlowsTransmitter.randomMulticastDestination, hfree, Option.map_map]
    rfl
  · rfl

/-- What is expected of the bundles, and of the unicast flows below `n`. -/
structure AllThere (n : Nat) (saved : List SavedMulticastTXFlow) (w : TransmitMulticasts)
    (t : TxTables) : Prop where
  unicast : ∀ k < n, ∃ info, t.tx.flowsInfo[k]? = some (some info) ∧ info.isMulticast = false
  bundle : ∀ s ∈ saved, ∃ cell, w.bundles[s.flowId - 1]? = some (some ⟨s.channelIndices, cell⟩)
  flow : ∀ s ∈ saved, ∃ info, t.tx.flowsInfo[s.flowId - 1]? = some (some info) ∧
    info.isMulticast = true

/-- The draws of a restart. -/
def drawOf (addresses : Nat → List (Byte × Byte)) (cookie : Nat → BitVec 16) (id : Nat) :
    MulticastDraw :=
  ⟨addresses id, ⟨cookie id, true⟩⟩

theorem loadState_cons (dev : MulticastDevice) (w : TransmitMulticasts)
    (s : SavedMulticastTXFlow) (rest : List SavedMulticastTXFlow) (draw : Nat → MulticastDraw) :
    w.loadState dev (s :: rest) draw =
      (w.loadFlow dev s (draw s.flowId)).loadState dev rest draw := rfl

/-- The saved bundles have places of their own, which are free. -/
structure Places (saved : List SavedMulticastTXFlow) (w : TransmitMulticasts) : Prop where
  free : ∀ s ∈ saved, ∃ i, s.flowId = i + 1 ∧ i < MAX_FLOWS ∧ w.bundles[i]? = some none
  nodup : (saved.map fun s => s.flowId - 1).Nodup

/-- The place of the first one, and those of the others, as they are later on. -/
theorem Places.cons {s : SavedMulticastTXFlow} {rest : List SavedMulticastTXFlow}
    (h : Places (s :: rest) w) :
    ∃ i, s.flowId = i + 1 ∧ i < MAX_FLOWS ∧ w.bundles[i]? = some none ∧
      i ∉ rest.map (fun s => s.flowId - 1) ∧
      ∀ w₁ : TransmitMulticasts, (∀ j, j ∉ [i] → w₁.bundles[j]? = w.bundles[j]?) →
        Places rest w₁ := by
  obtain ⟨⟨i, hid, hi, hfree⟩, hrest⟩ := List.forall_mem_cons.mp h.free
  have hnodup := h.nodup
  rw [List.map_cons, hid, Nat.add_sub_cancel] at hnodup
  obtain ⟨hnot, hnodup⟩ := List.nodup_cons.mp hnodup
  refine ⟨i, hid, hi, hfree, hnot, fun w₁ hsame => ⟨fun s' hs' => ?_, hnodup⟩⟩
  obtain ⟨j, hjd, hj, hjfree⟩ := hrest s' hs'
  have hne : j ∉ [i] := by
    intro hmem
    refine hnot (List.mem_map.mpr ⟨s', hs', ?_⟩)
    rw [hjd, Nat.add_sub_cancel]
    exact List.mem_singleton.mp hmem
  exact ⟨j, hjd, hj, (hsame j hne).trans hjfree⟩

theorem loads_all (dev : MulticastDevice) (addresses : Nat → List (Byte × Byte))
    (cookie : Nat → BitVec 16) {saved : List SavedMulticastTXFlow} (htx : w.flowsTx = some t)
    (h : t.tx.Settled t.slots) (hplaces : Places saved w) :
    ∃ t', Loads (saved.map fun s => s.flowId - 1) w
      (w.loadState dev saved (drawOf addresses cookie)) t t' := by
  induction saved generalizing w t with
  | nil => exact ⟨t, Loads.refl htx h⟩
  | cons s rest ih =>
      obtain ⟨i, hid, hi, hfree, _, hlater⟩ := hplaces.cons
      obtain ⟨t₁, hload, _⟩ := load_step dev (addresses s.flowId) (cookie s.flowId) hi hid
        htx h hfree
      obtain ⟨t', hrest⟩ := ih hload.tx hload.settled (hlater _ hload.bundles)
      refine ⟨t', ?_⟩
      have hall := hload.trans hrest
      rw [List.map_cons, hid, Nat.add_sub_cancel]
      exact hall

theorem load_iff (dev : MulticastDevice) (addresses : Nat → List (Byte × Byte))
    (cookie : Nat → BitVec 16) {n : Nat} {saved : List SavedMulticastTXFlow}
    {used : List SocketAddr} (htx : w.flowsTx = some t) (h : t.tx.Settled t.slots)
    (hplaces : Places saved w)
    (hempty : ∀ s ∈ saved, n < s.flowId → t.tx.flows (s.flowId - 1) = none)
    (hunicast : ∀ k < n, ∃ info, t.tx.flowsInfo[k]? = some (some info) ∧ info.isMulticast = false)
    (hused : ∀ a, a ∈ used ↔ (t.tx.ipPortToId a).isSome) {t' : TxTables}
    (hend : (w.loadState dev saved (drawOf addresses cookie)).flowsTx = some t') :
    AllThere n saved (w.loadState dev saved (drawOf addresses cookie)) t' ↔
      (∀ s ∈ saved, n < s.flowId) ∧ DstsDiffer addresses used saved := by
  induction saved generalizing w t used with
  | nil =>
      have heq : w.flowsTx = some t' := hend
      rw [htx] at heq
      cases heq
      refine iff_of_true ⟨hunicast, ?_, ?_⟩ ⟨?_, trivial⟩ <;> exact fun s hs => by cases hs
  | cons s rest ih =>
      obtain ⟨i, hid, hi, hfree, hnot, hlater⟩ := hplaces.cons
      obtain ⟨t₁, hload, hcase⟩ := load_step dev (addresses s.flowId) (cookie s.flowId) hi hid
        htx h hfree
      have hplaces₁ := hlater _ hload.bundles
      rw [loadState_cons] at hend ⊢
      obtain ⟨t'', hrest⟩ := loads_all dev addresses cookie hload.tx hload.settled hplaces₁
      have heq := hrest.tx
      rw [show drawOf addresses cookie s.flowId = ⟨addresses s.flowId, ⟨cookie s.flowId, true⟩⟩ from
        rfl] at hend ⊢
      rw [hend] at heq
      cases heq
      have hself : s.flowId - 1 = i := by rw [hid, Nat.add_sub_cancel]
      by_cases hle : n ≤ i
      · have hnone : t.tx.flows i = none := by
          rw [← hself]
          exact hempty s List.mem_cons_self (by rw [hid]; exact Nat.lt_succ_of_le hle)
        rw [loadDst_eq hused] at hcase
        rw [DstsDiffer]
        cases hdst : bundleDst used s (addresses s.flowId) with
        | none =>
            rw [hdst] at hcase
            refine iff_of_false (fun hall => ?_) fun hright => hright.2
            obtain ⟨cell, hthere⟩ := hall.bundle s List.mem_cons_self
            rw [hself, hrest.bundles i hnot, hcase] at hthere
            cases hthere
        | some dst =>
            rw [hdst] at hcase
            obtain ⟨hnew, hold⟩ := hcase
            rcases Classical.em (dst ∈ used) with hmem | hmem
            · -- the bundle took the place of another flow
              refine iff_of_false (fun hall => ?_) fun hright => hright.2.1 hmem
              obtain ⟨info, hinfo, _⟩ := hall.flow s List.mem_cons_self
              rw [hself] at hinfo
              have hlive := hrest.settled.together.tables.live i info hinfo
              have htaken := Option.isSome_iff_ne_none.mp ((hused dst).mp hmem)
              rw [hrest.free i hnot ((hold htaken).trans hnone)] at hlive
              cases hlive
            · obtain ⟨⟨cell, hthere⟩, hinfos, hips⟩ := hnew
                (Option.not_isSome_iff_eq_none.mp fun hsome => hmem ((hused dst).mpr hsome)) hnone
              have hlen : i < t.tx.flowsInfo.length := h.together.tables.length ▸ hi
              have hempty₁ : ∀ s' ∈ rest, n < s'.flowId → t₁.tx.flows (s'.flowId - 1) = none := by
                intro s' hs' hlt
                refine hload.free _ (fun hmem' => hnot ?_)
                  (hempty s' (List.mem_cons_of_mem s hs') hlt)
                exact List.mem_map.mpr ⟨s', hs', List.mem_singleton.mp hmem'⟩
              have hunicast₁ : ∀ k < n, ∃ info, t₁.tx.flowsInfo[k]? = some (some info) ∧
                  info.isMulticast = false := by
                intro k hk
                rw [hinfos, List.getElem?_set_ne (by omega)]
                exact hunicast k hk
              have hused₁ : ∀ a, a ∈ dst :: used ↔ (t₁.tx.ipPortToId a).isSome := by
                intro a
                rw [hips, List.mem_cons]
                by_cases hne : a = dst
                · rw [hne, Function.update_self]
                  exact iff_of_true (Or.inl rfl) rfl
                · rw [Function.update_of_ne hne, ← hused, or_iff_right hne]
              have hiff := ih hload.tx hload.settled hplaces₁ hempty₁ hunicast₁ hused₁ hend
              obtain ⟨info', hinfo', hmc'⟩ := hrest.multicast (j := i)
                (by rw [hinfos, List.getElem?_set_self hlen]) rfl
              have hbundle' := (hrest.bundles i hnot).trans hthere
              constructor
              · intro hall
                obtain ⟨hright, hdiffer⟩ := hiff.mp ⟨hall.unicast,
                  fun s' hs' => hall.bundle s' (List.mem_cons_of_mem s hs'),
                  fun s' hs' => hall.flow s' (List.mem_cons_of_mem s hs')⟩
                refine ⟨List.forall_mem_cons.mpr ⟨?_, hright⟩, hmem, hdiffer⟩
                rw [hid]
                exact Nat.lt_succ_of_le hle
              · rintro ⟨hright, _, hdiffer⟩
                obtain ⟨hunicast', hbundles', hflows'⟩ :=
                  hiff.mpr ⟨(List.forall_mem_cons.mp hright).2, hdiffer⟩
                refine ⟨hunicast', List.forall_mem_cons.mpr ⟨⟨cell, ?_⟩, hbundles'⟩,
                  List.forall_mem_cons.mpr ⟨⟨info', ?_, hmc'⟩, hflows'⟩⟩
                · rw [hself]
                  exact hbundle'
                · rw [hself]
                  exact hinfo'
      · -- the place of a unicast flow cannot have a bundle's
        refine iff_of_false (fun hall => ?_) fun hright => hle ?_
        · obtain ⟨info, hinfo, hmc⟩ := hall.flow s List.mem_cons_self
          obtain ⟨info', hinfo', hnot'⟩ := hall.unicast i (Nat.lt_of_not_le hle)
          rw [hself, hinfo'] at hinfo
          cases hinfo
          rw [hmc] at hnot'
          cases hnot'
        · have hlt := hright.1 s List.mem_cons_self
          rw [hid] at hlt
          exact Nat.le_of_lt_succ hlt

/-! ## The whole restart -/

/-- What a restart draws, for each saved id. -/
structure RestartDraw where
  unicastCookie : Nat → BitVec 16
  cookie : Nat → BitVec 16
  addresses : Nat → List (Byte × Byte)

/-- The loading in `DeviceServer::transmit`. The thread is there and all sockets
bind; it has no time to expire a flow. -/
def restart (dev : MulticastDevice) (flags : Flag → Bool) (txFlows : List SavedTxFlow)
    (multicasts : List SavedMulticastTXFlow) (draw : RestartDraw) : Option TransmitMulticasts :=
  (({ FlowsTransmitter.start flags with savedTxFlows := txFlows } : FlowsTransmitter).loadState
      txFlows draw.unicastCookie).map fun tx =>
    (new ⟨tx, List.replicate MAX_FLOWS none⟩).loadState dev multicasts
      (drawOf draw.addresses draw.cookie)

/-- What a flow is sent as once the queue is drained. -/
def flowFormat (t : TxTables) (id : Nat) : Option FlowFormat :=
  pending (formats t.slots) t.tx.commands id

/-- All that was saved is there again; `newId` is where the unicast flows are. -/
structure RestoredAt (newId : Nat → Nat) (t t' : TxTables) (w w' : TransmitMulticasts) : Prop where
  unicast : ∀ (id : Nat) (info : FlowInfo), (id, info) ∈ savable t.tx.flowsInfo →
    ∃ info', t'.tx.flowsInfo[newId id]? = some (some info') ∧ info'.isMulticast = false ∧
      info'.dst = info.dst ∧ info'.localChannelIndices = info.localChannelIndices ∧
      flowFormat t' (newId id) = flowFormat t id
  bundle : ∀ (i : Nat) (bundle : Bundle), w.bundles[i]? = some (some bundle) →
    (∃ cell, w'.bundles[i]? = some (some ⟨bundle.localChannelIndices, cell⟩)) ∧
      ∃ info', t'.tx.flowsInfo[i]? = some (some info') ∧ info'.isMulticast = true
  injective : ∀ (id id' : Nat) (info info' : FlowInfo), (id, info) ∈ savable t.tx.flowsInfo →
    (id', info') ∈ savable t.tx.flowsInfo → newId id = newId id' → id = id'
  apart : ∀ (id i : Nat) (info : FlowInfo) (bundle : Bundle), (id, info) ∈ savable t.tx.flowsInfo →
    w.bundles[i]? = some (some bundle) → newId id ≠ i

def Restored (t : TxTables) (w w' : TransmitMulticasts) : Prop :=
  ∃ t', w'.flowsTx = some t' ∧ ∃ newId, RestoredAt newId t t' w w'

/-- The flows are as they would be restored; as many indices as there are
unicast flows are not taken by bundles; all go to different places. -/
structure RestoresRight (t : TxTables) (w : TransmitMulticasts)
    (addresses : Nat → List (Byte × Byte)) : Prop where
  format : ∀ (id : Nat) (info : FlowInfo), (id, info) ∈ savable t.tx.flowsInfo →
    flowFormat t id = some FlowsTransmitter.RESTORED_FORMAT
  index : ∀ (i : Nat) (bundle : Bundle), w.bundles[i]? = some (some bundle) →
    (savable t.tx.flowsInfo).length ≤ i
  dsts : DstsDiffer addresses ((savable t.tx.flowsInfo).map fun p => p.2.dst) w.savedMulticasts

theorem Tabled.run (h : w.Tabled) (dev : MulticastDevice) (sampleRate : BitVec 32)
    (events : List MulticastEvent) : (w.run dev sampleRate events).Tabled := by
  induction events generalizing w with
  | nil => exact h
  | cons e events ih => exact ih (h.step sampleRate e)

theorem mem_savedMulticasts {s : SavedMulticastTXFlow} : s ∈ w.savedMulticasts ↔
    ∃ (i : Nat) (bundle : Bundle), w.bundles[i]? = some (some bundle) ∧ s.flowId = i + 1 ∧
      s = ⟨i + 1, w.dstAddrs bundle.dstAddr, bundle.localChannelIndices.map fun
        | some index => index + 1
        | none => 0⟩ := by
  constructor
  · intro hs
    obtain ⟨⟨o, i⟩, hmem, hsome⟩ := List.mem_filterMap.mp hs
    obtain ⟨bundle, rfl, rfl⟩ := Option.map_eq_some_iff.mp hsome
    exact ⟨i, bundle, List.mem_zipIdx_iff_getElem?.mp hmem, rfl, rfl⟩
  · rintro ⟨i, bundle, hi, _, rfl⟩
    exact List.mem_filterMap.mpr ⟨(some bundle, i), List.mem_zipIdx_iff_getElem?.mpr hi, rfl⟩

/-- Channels are stored from 1 on. -/
theorem channelIndices_saved (flowId : Nat) (dstAddr : BitVec 32) (chs : List (Option Nat)) :
    SavedMulticastTXFlow.channelIndices ⟨flowId, dstAddr, chs.map fun
      | some index => index + 1
      | none => 0⟩ = chs := by
  rw [SavedMulticastTXFlow.channelIndices, List.map_map]
  refine (List.map_congr_left fun c _ => ?_).trans (List.map_id chs)
  cases c <;> rfl

/-- The saved bundles fit a fresh table. -/
theorem savedMulticasts_places (hlen : w.bundles.length = MAX_FLOWS) (t : TxTables) :
    Places w.savedMulticasts (new t) where
  free s hs := by
    obtain ⟨i, bundle, hi, hid, _⟩ := mem_savedMulticasts.mp hs
    have hlt : i < MAX_FLOWS := hlen ▸ (List.getElem?_eq_some_iff.mp hi).1
    exact ⟨i, hid, hlt, List.getElem?_replicate_of_lt hlt⟩
  nodup := by
    refine nodup_of_zipIdx (fun a s hs => ?_) w.bundles
    obtain ⟨bundle, _, rfl⟩ := Option.map_eq_some_iff.mp hs
    rfl

/-- The unicast flows are loaded one after the other. -/
theorem loads_unicast (htogether : t.tx.Together t.slots) (flags : Flag → Bool)
    (cookie : Nat → BitVec 16) :
    ∃ tx', ({ FlowsTransmitter.start flags with
        savedTxFlows := unicastFlows t.tx.flowsInfo } : FlowsTransmitter).loadState
          (unicastFlows t.tx.flowsInfo) cookie = some tx' ∧
      FlowsTransmitter.Loaded (List.replicate MAX_FLOWS none) tx'
        ((savable t.tx.flowsInfo).map fun p => p.2.restored) := by
  have hsaved : ∀ saved ∈ unicastFlows t.tx.flowsInfo, saved.flowId ≠ 0 ∧
      saved.channelIndices.isEmpty = false ∧ saved.multicastAddr.isSome = true := by
    intro saved hmem
    rw [unicastFlows_eq] at hmem
    obtain ⟨⟨id, info⟩, hp, rfl⟩ := List.mem_map.mp hmem
    exact ⟨Nat.succ_ne_zero id, (mem_savable.mp hp).2.2, rfl⟩
  have hall := (FlowsTransmitter.start_loaded flags (unicastFlows t.tx.flowsInfo)).all hsaved
    ?_ ?_ cookie
  · rw [List.nil_append, restoredInfos_unicastFlows] at hall
    exact hall
  · have hle := List.length_filterMap_le (fun (p : Option FlowInfo × Nat) => p.1.bind fun info =>
      if !info.isMulticast && !info.localChannelIndices.isEmpty then some (p.2, info) else none)
      t.tx.flowsInfo.zipIdx
    rw [List.length_zipIdx, htogether.tables.length] at hle
    rw [unicastFlows_eq, List.length_map, List.length_nil, Nat.zero_add]
    exact hle
  · rw [List.nil_append, restoredInfos_unicastFlows, List.map_map]
    exact savable_dsts_nodup htogether

/-- The file has the unicast flows. -/
theorem saved_unicastFlows
    (hexp : ∀ (id : Nat) (info : FlowInfo), t.tx.flowsInfo[id]? = some (some info) →
      info.Expressible) :
    t.tx.saveState.savedTxFlows = unicastFlows t.tx.flowsInfo := by
  rw [FlowsTransmitter.saveState_saved, if_pos]
  exact List.all_eq_true.mpr ((unicastFlows_expressible _).mpr hexp)

theorem formats_empty : formats (List.replicate MAX_FLOWS none) = fun _ => none := by
  funext index
  unfold formats
  split
  · next flow hget =>
      have hmem := List.mem_of_getElem? hget
      cases (List.mem_replicate.mp hmem).2
  · rfl

/-- Where each flow went when it was loaded. -/
theorem loaded_at {infos : List FlowInfo} {tx' : FlowsTransmitter} {t' : TxTables}
    {w' : TransmitMulticasts} {is : List Nat}
    (hinfos : infos = (savable t.tx.flowsInfo).map fun p => p.2.restored)
    (hloaded : FlowsTransmitter.Loaded (List.replicate MAX_FLOWS none) tx' infos)
    (hloads : Loads is w₁ w' ⟨tx', List.replicate MAX_FLOWS none⟩ t') {id : Nat} {info : FlowInfo}
    (hmem : (id, info) ∈ savable t.tx.flowsInfo) :
    tx'.flowsInfo[place t.tx.flowsInfo id]? = some (some info.restored) ∧
      t'.tx.ipPortToId info.dst = some (place t.tx.flowsInfo id) ∧
      flowFormat t' (place t.tx.flowsInfo id) = some FlowsTransmitter.RESTORED_FORMAT := by
  have hinfo : tx'.flowsInfo[place t.tx.flowsInfo id]? = some (some info.restored) := by
    rw [hloaded.info, hinfos, List.getElem?_map, savable_place hmem]
    rfl
  have htogether := hloaded.settled.together
  have hlive := htogether.tables.live _ _ hinfo
  refine ⟨hinfo, ?_, ?_⟩
  · obtain ⟨flow, hflow⟩ := Option.isSome_iff_exists.mp hlive
    have hid := htogether.tables.id _ flow hflow
    rw [← htogether.remote _ flow _ hflow hinfo] at hid
    exact hloads.dsts _ _ hid
  · have hlt : place t.tx.flowsInfo id < infos.length := by
      rw [hinfos, List.length_map]
      exact (List.getElem?_eq_some_iff.mp (savable_place hmem)).1
    rw [flowFormat, hloads.formats _ _ hlive, hloads.slots]
    dsimp only
    rw [formats_empty]
    exact hloaded.format _ hlt

/-- Everything is there again exactly if it is in the tables, and had the
format that all flows get. -/
theorem restored_iff_there {infos : List FlowInfo} {tx' : FlowsTransmitter} {t' : TxTables}
    {w' : TransmitMulticasts} {is : List Nat}
    (hinfos : infos = (savable t.tx.flowsInfo).map fun p => p.2.restored)
    (hloaded : FlowsTransmitter.Loaded (List.replicate MAX_FLOWS none) tx' infos)
    (hloads : Loads is w₁ w' ⟨tx', List.replicate MAX_FLOWS none⟩ t') :
    Restored t w w' ↔ AllThere (savable t.tx.flowsInfo).length w.savedMulticasts w' t' ∧
      ∀ (id : Nat) (info : FlowInfo), (id, info) ∈ savable t.tx.flowsInfo →
        flowFormat t id = some FlowsTransmitter.RESTORED_FORMAT := by
  have ht' := hloads.settled.together
  have hat₁ := fun (id : Nat) (info : FlowInfo) (hmem : (id, info) ∈ savable t.tx.flowsInfo) =>
    loaded_at hinfos hloaded hloads hmem
  constructor
  · rintro ⟨t'', ht'', newId, hat⟩
    rw [hloads.tx] at ht''
    cases ht''
    have hplace : ∀ (id : Nat) (info : FlowInfo), (id, info) ∈ savable t.tx.flowsInfo →
        newId id = place t.tx.flowsInfo id := by
      intro id info hmem
      obtain ⟨info', hinfo', _, hdst, _⟩ := hat.unicast id info hmem
      obtain ⟨flow, hflow⟩ := Option.isSome_iff_exists.mp (ht'.tables.live _ _ hinfo')
      have hid := ht'.tables.id _ flow hflow
      rw [← ht'.remote _ flow info' hflow hinfo', hdst, (hat₁ id info hmem).2.1] at hid
      exact (Option.some.inj hid).symm
    refine ⟨⟨fun k hk => ?_, fun s hs => ?_, fun s hs => ?_⟩, fun id info hmem => ?_⟩
    · obtain ⟨⟨id, info⟩, hget⟩ : ∃ p, (savable t.tx.flowsInfo)[k]? = some p :=
        ⟨_, List.getElem?_eq_getElem hk⟩
      have hmem := List.mem_of_getElem? hget
      obtain ⟨info', hinfo', hmc, _⟩ := hat.unicast id info hmem
      rw [hplace id info hmem] at hinfo'
      rw [place_eq hget] at hinfo'
      exact ⟨info', hinfo', hmc⟩
    · obtain ⟨i, bundle, hi, hid, rfl⟩ := mem_savedMulticasts.mp hs
      rw [hid, Nat.add_sub_cancel, channelIndices_saved]
      exact (hat.bundle i bundle hi).1
    · obtain ⟨i, bundle, hi, hid, _⟩ := mem_savedMulticasts.mp hs
      rw [hid, Nat.add_sub_cancel]
      exact (hat.bundle i bundle hi).2
    · obtain ⟨_, _, _, _, _, hformat⟩ := hat.unicast id info hmem
      rw [← hformat, hplace id info hmem]
      exact (hat₁ id info hmem).2.2
  · rintro ⟨hall, hformat⟩
    have hunicast : ∀ (id : Nat) (info : FlowInfo), (id, info) ∈ savable t.tx.flowsInfo →
        ∃ info', t'.tx.flowsInfo[place t.tx.flowsInfo id]? = some (some info') ∧
          info'.isMulticast = false ∧ info'.dst = info.dst ∧
          info'.localChannelIndices = info.localChannelIndices := by
      intro id info hmem
      obtain ⟨info', hinfo', hmc⟩ := hall.unicast _
        (List.getElem?_eq_some_iff.mp (savable_place hmem)).1
      rcases hloads.infos (place t.tx.flowsInfo id) with hsame | ⟨other, hother, hmc'⟩
      · rw [hsame, (hat₁ id info hmem).1] at hinfo'
        cases hinfo'
        exact ⟨_, hsame.trans (hat₁ id info hmem).1, rfl, rfl, rfl⟩
      · rw [hother] at hinfo'
        cases hinfo'
        rw [hmc'] at hmc
        cases hmc
    have hbundle : ∀ (i : Nat) (bundle : Bundle), w.bundles[i]? = some (some bundle) →
        (∃ cell, w'.bundles[i]? = some (some ⟨bundle.localChannelIndices, cell⟩)) ∧
          ∃ info', t'.tx.flowsInfo[i]? = some (some info') ∧ info'.isMulticast = true := by
      intro i bundle hi
      have hs := mem_savedMulticasts.mpr ⟨i, bundle, hi, rfl, rfl⟩
      have hthere := hall.bundle _ hs
      have hflow := hall.flow _ hs
      rw [Nat.add_sub_cancel] at hthere hflow
      rw [channelIndices_saved] at hthere
      exact ⟨hthere, hflow⟩
    refine ⟨t', hloads.tx, place t.tx.flowsInfo, fun id info hmem => ?_, hbundle,
      fun id id' info info' hmem hmem' heq => ?_, fun id i info bundle hmem hi heq => ?_⟩
    · obtain ⟨info', hinfo', hmc, hdst, hchs⟩ := hunicast id info hmem
      exact ⟨info', hinfo', hmc, hdst, hchs, (hat₁ id info hmem).2.2.trans
        (hformat id info hmem).symm⟩
    · have hget := savable_place hmem
      rw [heq, savable_place hmem'] at hget
      cases hget
      rfl
    · obtain ⟨info', hinfo', hmc, _⟩ := hunicast id info hmem
      obtain ⟨_, other, hother, hmc'⟩ := hbundle i bundle hi
      rw [heq, hother] at hinfo'
      cases hinfo'
      rw [hmc'] at hmc
      cases hmc

/-- From every state that is reached, with no gap in the channels of a unicast
flow: what was saved is restored exactly if the unicast flows had the restored
format, no bundle's index is below their number, and the destinations differ. -/
theorem restored_iff (dev : MulticastDevice) (sampleRate : BitVec 32) (flags flags' : Flag → Bool)
    (events : List MulticastEvent) (draw : RestartDraw) (t : TxTables)
    (ht : (run dev sampleRate (new (.start flags)) events).flowsTx = some t)
    (hexp : ∀ (id : Nat) (info : FlowInfo), t.tx.flowsInfo[id]? = some (some info) →
      info.Expressible) :
    ∃ w', restart dev flags' t.tx.saveState.savedTxFlows
        (run dev sampleRate (new (.start flags)) events).savedMulticasts draw = some w' ∧
      (Restored t (run dev sampleRate (new (.start flags)) events) w' ↔
        RestoresRight t (run dev sampleRate (new (.start flags)) events) draw.addresses) := by
  have htabled : (run dev sampleRate (new (.start flags)) events).Tabled :=
    (new_tabled flags).run dev sampleRate events
  revert ht htabled
  generalize run dev sampleRate (new (.start flags)) events = w
  intro ht htabled
  obtain ⟨tx', hload, hloaded⟩ := loads_unicast (htabled.tables t ht) flags' draw.unicastCookie
  have hplaces := savedMulticasts_places htabled.bundles ⟨tx', List.replicate MAX_FLOWS none⟩
  obtain ⟨t', hloads⟩ := loads_all dev draw.addresses draw.cookie rfl hloaded.settled hplaces
  rw [saved_unicastFlows hexp, restart, hload]
  refine ⟨_, rfl, ?_⟩
  rw [restored_iff_there rfl hloaded hloads]
  have hused : ∀ a, a ∈ ((savable t.tx.flowsInfo).map fun p => p.2.dst) ↔
      (tx'.ipPortToId a).isSome := by
    intro a
    rw [hloaded.dst_iff, List.map_map]
    exact Iff.rfl
  have hiff := load_iff dev draw.addresses draw.cookie (n := (savable t.tx.flowsInfo).length) rfl
    hloaded.settled hplaces (fun s _ hlt => ?_) (fun k hk => ?_) hused hloads.tx
  · rw [hiff]
    constructor
    · rintro ⟨⟨hright, hdiffer⟩, hformat⟩
      refine ⟨hformat, fun i bundle hi => ?_, hdiffer⟩
      exact Nat.le_of_lt_succ (hright _ (mem_savedMulticasts.mpr ⟨i, bundle, hi, rfl, rfl⟩))
    · rintro ⟨hformat, hindex, hdiffer⟩
      refine ⟨⟨fun s hs => ?_, hdiffer⟩, hformat⟩
      obtain ⟨i, bundle, hi, hid, _⟩ := mem_savedMulticasts.mp hs
      rw [hid]
      exact Nat.lt_succ_of_le (hindex i bundle hi)
  · -- beyond the unicast flows the table is empty
    refine Option.eq_none_iff_forall_ne_some.mpr fun flow hflow => ?_
    obtain ⟨info, hinfo⟩ := hloaded.settled.together.tables.info _ flow hflow
    have hlt' := (List.getElem?_eq_some_iff.mp ((hloaded.info _ info).mp hinfo)).1
    rw [List.length_map] at hlt'
    omega
  · obtain ⟨⟨id, info⟩, hget⟩ : ∃ p, (savable t.tx.flowsInfo)[k]? = some p :=
      ⟨_, List.getElem?_eq_getElem hk⟩
    refine ⟨info.restored, (hloaded.info k _).mpr ?_, rfl⟩
    rw [List.getElem?_map, hget]
    rfl

/-! ## Two devices -/

def sampleDraw : RestartDraw := ⟨fun _ => 7, fun _ => 7, fun _ => [(1, 9)]⟩

/-- A flow to a receiver at index 0, and bundle 2, which is active. -/
def flowThenBundle : List MulticastEvent :=
  [.publish, .unicast (.addFlow "rx" (some "1") ⟨0x0A000002, 5000⟩ [some 0] 32 3 ⟨7, true⟩),
    .check 2 [some 1, none], .create (drawn 1), .grace 0 (some false) (some false) (drawn 3)]

theorem restored_iff_flowThenBundle :
    ∃ t w', (twoOutputsRun flowThenBundle).flowsTx = some t ∧
      restart twoOutputs (fun _ => false) t.tx.saveState.savedTxFlows
        (twoOutputsRun flowThenBundle).savedMulticasts sampleDraw = some w' ∧
      Restored t (twoOutputsRun flowThenBundle) w' := by
  obtain ⟨t, ht⟩ := Option.isSome_iff_exists.mp
    (by decide : (twoOutputsRun flowThenBundle).flowsTx.isSome = true)
  have hsavable : (twoOutputsRun flowThenBundle).flowsTx.map (fun t =>
      (savable t.tx.flowsInfo).map fun p => (p.1, p.2.dst)) = some [(0, ⟨0x0A000002, 5000⟩)] := by
    decide
  have hformat : (twoOutputsRun flowThenBundle).flowsTx.map (fun t => flowFormat t 0) =
      some (some FlowsTransmitter.RESTORED_FORMAT) := by
    decide
  have hexp : (twoOutputsRun flowThenBundle).flowsTx.map (fun t => t.tx.flowsInfo.all fun o =>
      o.all fun info => info.isMulticast || info.localChannelIndices.all Option.isSome) =
      some true := by
    decide
  have hbundles : (twoOutputsRun flowThenBundle).bundles =
      none :: some ⟨[some 1, none], 0⟩ :: List.replicate 30 none := by
    decide
  have hsaved : (twoOutputsRun flowThenBundle).savedMulticasts.map
      (fun s => (s.flowId, s.dstAddr)) = [(2, FlowsTransmitter.multicastAddress (1, 1))] := by
    decide
  rw [ht, Option.map_some, Option.some.injEq] at hsavable hformat hexp
  obtain ⟨⟨id, info⟩, hsavable, hidd⟩ := List.map_eq_singleton_iff.mp hsavable
  obtain ⟨rfl, hdst⟩ := Prod.mk.inj hidd
  have hexpressible : ∀ (id : Nat) (info : FlowInfo), t.tx.flowsInfo[id]? = some (some info) →
      info.Expressible := by
    intro id info hinfo hmc
    have hall := List.all_eq_true.mp hexp _ (List.mem_of_getElem? hinfo)
    rw [Option.all_some, hmc, Bool.false_or] at hall
    exact hall
  obtain ⟨w', hrestart, hiff⟩ := restored_iff twoOutputs 48000 (fun _ => false) (fun _ => false)
    flowThenBundle sampleDraw t ht hexpressible
  refine ⟨t, w', ht, hrestart, hiff.mpr ⟨fun id info hmem => ?_, fun i bundle hi => ?_, ?_⟩⟩
  · rw [hsavable, List.mem_singleton] at hmem
    cases hmem
    exact hformat
  · rw [hsavable]
    cases i with
    | zero =>
        have hi' := (congrArg (·[0]?) hbundles).symm.trans hi
        cases hi'
    | succ i => exact Nat.succ_pos i
  · rw [hsavable]
    obtain ⟨⟨flowId, dstAddr, ids⟩, hsaved, hs⟩ := List.map_eq_singleton_iff.mp hsaved
    cases hs
    rw [show savedMulticasts (run twoOutputs 48000 (new (TxTables.start fun _ => false))
      flowThenBundle) = [⟨2, FlowsTransmitter.multicastAddress (1, 1), ids⟩] from hsaved]
    rw [DstsDiffer, bundleDst, List.map_singleton]
    dsimp only at hdst ⊢
    rw [hdst, if_neg (by decide)]
    exact ⟨fun hmem => absurd (List.mem_singleton.mp hmem) (by decide), trivial⟩

/-- Bundle 1, then a flow to a receiver, at index 1. -/
def bundleThenFlow : List MulticastEvent :=
  [.publish, .check 1 [some 1], .create (drawn 1), .grace 0 (some false) (some false) (drawn 3),
    .unicast (.addFlow "rx" (some "1") ⟨0x0A000002, 5000⟩ [some 0] 32 3 ⟨7, true⟩)]

/-- The flow comes back at index 0, and the bundle without a flow. -/
theorem bundle_without_flow :
    ∃ t w', (twoOutputsRun bundleThenFlow).flowsTx = some t ∧
      (∀ (id : Nat) (info : FlowInfo), t.tx.flowsInfo[id]? = some (some info) →
        info.Expressible) ∧
      restart twoOutputs (fun _ => false) t.tx.saveState.savedTxFlows
        (twoOutputsRun bundleThenFlow).savedMulticasts sampleDraw = some w' ∧
      ¬ Restored t (twoOutputsRun bundleThenFlow) w' := by
  obtain ⟨t, ht⟩ := Option.isSome_iff_exists.mp
    (by decide : (twoOutputsRun bundleThenFlow).flowsTx.isSome = true)
  have hexp : (twoOutputsRun bundleThenFlow).flowsTx.map (fun t => t.tx.flowsInfo.all fun o =>
      o.all fun info => info.isMulticast || info.localChannelIndices.all Option.isSome) =
      some true := by
    decide
  have hbundle : (twoOutputsRun bundleThenFlow).bundles[0]? = some (some ⟨[some 1], 0⟩) := by
    decide
  have hrestart : ((twoOutputsRun bundleThenFlow).flowsTx.bind fun t =>
      (restart twoOutputs (fun _ => false) t.tx.saveState.savedTxFlows
        (twoOutputsRun bundleThenFlow).savedMulticasts sampleDraw).bind fun w' =>
          w'.flowsTx.map fun t' => t'.tx.flowsInfo[0]?.map (Option.map FlowInfo.isMulticast)) =
      some (some (some false)) := by
    decide
  rw [ht, Option.bind_some] at hrestart
  rw [ht, Option.map_some, Option.some.injEq] at hexp
  obtain ⟨w', hw', hrestart⟩ := Option.bind_eq_some_iff.mp hrestart
  obtain ⟨t', ht', hinfo⟩ := Option.map_eq_some_iff.mp hrestart
  refine ⟨t, w', ht, fun id info hinfo hmc => ?_, hw', ?_⟩
  · have hall := List.all_eq_true.mp hexp _ (List.mem_of_getElem? hinfo)
    rw [Option.all_some, hmc, Bool.false_or] at hall
    exact hall
  · rintro ⟨t'', ht'', newId, hat⟩
    rw [ht'] at ht''
    cases ht''
    obtain ⟨_, info, hinfo', hmc⟩ := hat.bundle 0 _ hbundle
    rw [hinfo', Option.map_some, Option.map_some, hmc] at hinfo
    cases hinfo

end TransmitMulticasts

end Inferno
