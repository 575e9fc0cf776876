import Inferno.TxWorld
import Inferno.TxTables

/-!
# One answer for each request

When does a request, stop or update datagram get exactly one answer, and an
error answer leave the flows alone (`AnsweredOnce`)? Expired flows may be
reclaimed on the way (`Reclaimed`). The server means it of every datagram: each
check answers and goes on to the next one. It fails where a check answers and
falls through, the one of the channel numbers, and where the task panics: an
unterminated string, or a transmitting thread that is gone (`answered_once_iff`).
-/

namespace Inferno

namespace FlowsTransmitter

/-- Nothing but expired flows has gone. -/
structure Reclaimed (tx tx' : FlowsTransmitter) : Prop where
  flows : ∀ id, tx'.flows id = tx.flows id ∨ tx.isExpired id = some true ∧ tx'.flows id = none
  info : ∀ id, tx'.flowsInfo[id]? = tx.flowsInfo[id]? ∨
    tx.isExpired id = some true ∧ tx'.flowsInfo[id]? = some none
  told : ∃ ids : List Nat, (∀ id ∈ ids, tx.isExpired id = some true) ∧
    tx'.commands = tx.commands ++ ids.map TxCommand.removeFlow

theorem Reclaimed.refl (tx : FlowsTransmitter) : tx.Reclaimed tx where
  flows := fun _ => Or.inl rfl
  info := fun _ => Or.inl rfl
  told := ⟨[], fun _ hid => absurd hid List.not_mem_nil, (List.append_nil _).symm⟩

variable {tx : FlowsTransmitter}

theorem Reclaimed.congr {tx₁ tx₂ : FlowsTransmitter} (h : tx.Reclaimed tx₁)
    (hf : tx₂.flows = tx₁.flows) (hi : tx₂.flowsInfo = tx₁.flowsInfo)
    (hc : tx₂.commands = tx₁.commands) : tx.Reclaimed tx₂ := by
  obtain ⟨h1, h2, h3⟩ := h
  refine ⟨?_, ?_, ?_⟩ <;> simpa only [hf, hi, hc]

/-! ## The expiry scan -/

theorem expiredIds_mem {ids out : List Nat} (h : tx.expiredIds ids = some out) (id : Nat) :
    id ∈ out ↔ id ∈ ids ∧ tx.isExpired id = some true := by
  induction ids generalizing out with
  | nil =>
      cases h
      exact ⟨fun hid => absurd hid List.not_mem_nil, fun hid => absurd hid.1 List.not_mem_nil⟩
  | cons id₀ ids ih =>
      obtain ⟨expired, hexpired, h⟩ := Option.bind_eq_some_iff.mp h
      obtain ⟨rest, hrest, h⟩ := Option.bind_eq_some_iff.mp h
      have hmem := ih hrest
      cases h
      rw [List.mem_cons]
      cases expired with
      | true =>
          rw [if_pos rfl, List.mem_cons, hmem]
          constructor
          · rintro (rfl | ⟨hid, hexp⟩)
            · exact ⟨Or.inl rfl, hexpired⟩
            · exact ⟨Or.inr hid, hexp⟩
          · rintro ⟨rfl | hid, hexp⟩
            · exact Or.inl rfl
            · exact Or.inr ⟨hid, hexp⟩
      | false =>
          rw [if_neg Bool.false_ne_true, hmem]
          constructor
          · rintro ⟨hid, hexp⟩
            exact ⟨Or.inr hid, hexp⟩
          · rintro ⟨rfl | hid, hexp⟩
            · rw [hexpired] at hexp
              cases hexp
            · exact ⟨hid, hexp⟩

theorem isExpired_live {id : Nat} (h : tx.isExpired id = some true) : (tx.flows id).isSome := by
  unfold isExpired at h
  cases hflow : tx.flows id with
  | some flow => rfl
  | none =>
      rw [hflow] at h
      cases h

/-- Removing live flows, with the thread there to be told. -/
theorem removeAll_fields (h : tx.Tables) (hopen : tx.receiverGone = false) {ids : List Nat}
    (hnodup : ids.Nodup) (hlive : ∀ id ∈ ids, (tx.flows id).isSome) :
    ∃ tx', ids.foldlM removeFlowInternal tx = some tx' ∧
      (∀ id, tx'.flows id = if id ∈ ids then none else tx.flows id) ∧
      (∀ id, tx'.flowsInfo[id]? = if id ∈ ids then some none else tx.flowsInfo[id]?) ∧
      tx'.commands = tx.commands ++ ids.map TxCommand.removeFlow ∧
      tx'.receiverGone = false ∧ tx'.Tables := by
  induction ids generalizing tx with
  | nil =>
      refine ⟨tx, rfl, fun id => ?_, fun id => ?_, (List.append_nil _).symm, hopen, h⟩
      · rw [if_neg List.not_mem_nil]
      · rw [if_neg List.not_mem_nil]
  | cons id₀ ids ih =>
      obtain ⟨flow, hflow⟩ := Option.isSome_iff_exists.mp (hlive id₀ List.mem_cons_self)
      obtain ⟨hnot, hnodup⟩ := List.nodup_cons.mp hnodup
      have hlt : id₀ < tx.flowsInfo.length := h.length ▸ h.lt hflow
      have hrun := removeFlowInternal_eq h hopen hflow
      have hlive₁ : ∀ id ∈ ids, (Function.update tx.flows id₀ none id).isSome := by
        intro id hid
        have hne : id ≠ id₀ := fun heq => hnot (heq ▸ hid)
        rw [Function.update_of_ne hne]
        exact hlive id (List.mem_cons_of_mem _ hid)
      obtain ⟨tx', hrest, hf, hi, hc, hg, ht⟩ := @ih { tx with
        flows := Function.update tx.flows id₀ none
        ipPortToId := Function.update tx.ipPortToId flow.remote none
        flowsInfo := tx.flowsInfo.set id₀ none
        commands := tx.commands ++ [.removeFlow id₀] }
        ((h.remove hflow).congr rfl rfl rfl) hopen hnodup hlive₁
      refine ⟨tx', ?_, fun id => ?_, fun id => ?_, ?_, hg, ht⟩
      · rw [List.foldlM_cons, hrun]
        exact hrest
      · rw [hf id]
        dsimp only
        by_cases hid : id ∈ ids
        · rw [if_pos hid, if_pos (List.mem_cons_of_mem _ hid)]
        rw [if_neg hid]
        by_cases hne : id = id₀
        · rw [hne, Function.update_self, if_pos List.mem_cons_self]
        · rw [Function.update_of_ne hne, if_neg]
          exact fun hmem => (List.mem_cons.mp hmem).elim hne hid
      · rw [hi id]
        dsimp only
        by_cases hid : id ∈ ids
        · rw [if_pos hid, if_pos (List.mem_cons_of_mem _ hid)]
        rw [if_neg hid]
        by_cases hne : id = id₀
        · rw [hne, List.getElem?_set_self hlt, if_pos List.mem_cons_self]
        · rw [List.getElem?_set_ne (Ne.symm hne), if_neg]
          exact fun hmem => (List.mem_cons.mp hmem).elim hne hid
      · rw [hc, List.map_cons, List.append_assoc]
        rfl

/-- The scan can tell the thread about each flow it removes, or has none. -/
def CanScan (tx : FlowsTransmitter) : Prop :=
  tx.receiverGone = false ∨ ∀ id, tx.isExpired id ≠ some true

theorem scanExpired_reclaims (h : tx.Tables) (hscan : tx.CanScan) :
    ∃ tx', tx.scanExpired = some tx' ∧ tx.Reclaimed tx' ∧
      tx'.receiverGone = tx.receiverGone ∧ tx'.Tables := by
  obtain ⟨ids, hids, hsub, hlive⟩ := h.expiredIds (List.range MAX_FLOWS)
  have hmem := expiredIds_mem hids
  rcases hscan with hopen | hnone
  · obtain ⟨tx', hrun, hf, hi, hc, hg, ht⟩ :=
      removeAll_fields h hopen (hsub.nodup List.nodup_range) hlive
    refine ⟨tx', ?_, ⟨fun id => ?_, fun id => ?_, ids, fun id hid => ((hmem id).mp hid).2, hc⟩,
      hg.trans hopen.symm, ht⟩
    · rw [FlowsTransmitter.scanExpired, hids]
      exact hrun
    · rw [hf id]
      by_cases hid : id ∈ ids
      · exact Or.inr ⟨((hmem id).mp hid).2, if_pos hid⟩
      · exact Or.inl (if_neg hid)
    · rw [hi id]
      by_cases hid : id ∈ ids
      · exact Or.inr ⟨((hmem id).mp hid).2, if_pos hid⟩
      · exact Or.inl (if_neg hid)
  · have hnil : ids = [] := List.eq_nil_iff_forall_not_mem.mpr
      fun id hid => hnone id ((hmem id).mp hid).2
    refine ⟨tx, ?_, Reclaimed.refl tx, rfl, h⟩
    rw [FlowsTransmitter.scanExpired, hids, hnil]
    rfl

theorem scanExpired_panics (h : tx.Tables) (hscan : ¬ tx.CanScan) : tx.scanExpired = none := by
  obtain ⟨ids, hids, _, hlive⟩ := h.expiredIds (List.range MAX_FLOWS)
  have hmem := expiredIds_mem hids
  unfold CanScan at hscan
  push Not at hscan
  obtain ⟨hgone, id, hexpired⟩ := hscan
  obtain ⟨flow, hflow⟩ := Option.isSome_iff_exists.mp (isExpired_live hexpired)
  have hid : id ∈ ids := (hmem id).mpr ⟨List.mem_range.mpr (h.lt hflow), hexpired⟩
  rw [FlowsTransmitter.scanExpired, hids]
  cases ids with
  | nil => cases hid
  | cons id₀ ids =>
      obtain ⟨flow₀, hflow₀⟩ := Option.isSome_iff_exists.mp (hlive id₀ List.mem_cons_self)
      have hnone : tx.removeFlowInternal id₀ = none :=
        removeFlowInternal_gone h (Bool.eq_true_of_not_eq_false hgone) hflow₀
      show (id₀ :: ids).foldlM removeFlowInternal tx = none
      rw [List.foldlM_cons, hnone]
      rfl

/-! ## The calls -/

/-- The thread is there to be told, or there is nothing to tell it. -/
def CanAdd (tx : FlowsTransmitter) (dst : SocketAddr) : Prop :=
  tx.receiverGone = false ∨ tx.ipPortToId dst = none ∧ ∀ id, tx.isExpired id ≠ some true

theorem CanAdd.canScan {dst : SocketAddr} (h : tx.CanAdd dst) : tx.CanScan := by
  rcases h with hopen | ⟨_, hnone⟩
  · exact Or.inl hopen
  · exact Or.inr hnone

theorem chooseIndex_total (attempts : Nat) :
    ∃ r, FlowsTransmitter.chooseIndex none attempts tx = some r := by
  induction attempts generalizing tx with
  | zero => exact ⟨_, rfl⟩
  | succ attempts ih =>
      simp only [FlowsTransmitter.chooseIndex]
      split
      · exact ih
      · exact ⟨_, rfl⟩

theorem insertFlow_error {id : Nat} (hlt : id < tx.flowsInfo.length) {info : FlowInfo}
    {fpp bytesPerSample : Nat} {isMulticast : Bool} {cookie : BitVec 16} {e : IoError}
    (h : (tx.insertFlow info fpp bytesPerSample isMulticast cookie id).2 = .error e) :
    (tx.insertFlow info fpp bytesPerSample isMulticast cookie id).1 = tx := by
  unfold insertFlow at h ⊢
  split
  · rfl
  · next hopen =>
      rw [if_neg hopen] at h
      dsimp only at h
      rw [register_eq (by exact hlt)] at h
      cases h

/-- A call of `add_flow` that fails has added nothing. -/
theorem addFlow_reclaims (h : tx.Tables) {info : FlowInfo} (hcan : tx.CanAdd info.dst)
    (fpp bytesPerSample : Nat) (isMulticast : Bool) (env : AddFlowEnv) :
    ∃ tx' r, tx.addFlow info fpp bytesPerSample none isMulticast env = some (tx', r) ∧
      ∀ e, r = .error e → tx.Reclaimed tx' := by
  cases hip : tx.ipPortToId info.dst with
  | some id =>
      obtain ⟨flow, hflow, _⟩ := h.addr _ _ hip
      have hopen : tx.receiverGone = false := by
        rcases hcan with hopen | ⟨hnone, _⟩
        · exact hopen
        · rw [hip] at hnone
          cases hnone
      exact ⟨_, _, addFlow_told h hopen hip hflow fpp bytesPerSample none isMulticast env,
        fun e he => by cases he⟩
  | none =>
      unfold FlowsTransmitter.addFlow
      obtain ⟨tx₁, hscan, h₁, hg, ht₁⟩ := scanExpired_reclaims h hcan.canScan
      obtain ⟨⟨tx₂, r⟩, hchoose⟩ := @chooseIndex_total tx₁ (MAX_FLOWS + 1)
      obtain ⟨⟨n, rfl⟩, hfree⟩ := chooseIndex_cases hchoose
      have h₂ : tx.Reclaimed { tx₁ with flowSeqId := n } := h₁.congr rfl rfl rfl
      simp only [hip, hscan, hchoose, Option.bind_eq_bind, Option.bind_some]
      cases r with
      | error e => exact ⟨_, _, rfl, fun _ _ => h₂⟩
      | ok id =>
          obtain ⟨_, hlt⟩ := hfree id rfl
          rw [ht₁.length, or_self] at hlt
          cases env.socketOk with
          | false => exact ⟨_, _, rfl, fun _ _ => h₂⟩
          | true =>
              refine ⟨(insertFlow _ _ _ _ _ _ _).1, (insertFlow _ _ _ _ _ _ _).2, rfl,
                fun e he => ?_⟩
              rw [insertFlow_error (by exact ht₁.length ▸ hlt) he]
              exact h₂

theorem addFlow_panics (h : tx.Tables) {info : FlowInfo} (hcan : ¬ tx.CanAdd info.dst)
    (fpp bytesPerSample : Nat) (isMulticast : Bool) (env : AddFlowEnv) :
    tx.addFlow info fpp bytesPerSample none isMulticast env = none := by
  unfold CanAdd at hcan
  push Not at hcan
  obtain ⟨hgone, hexpired⟩ := hcan
  cases hip : tx.ipPortToId info.dst with
  | some id => exact addFlow_gone (Bool.eq_true_of_not_eq_false hgone) hip _ _ _ _ _
  | none =>
      have hscan : ¬ tx.CanScan := by
        rintro (hopen | hnone)
        · exact hgone hopen
        · obtain ⟨id, hid⟩ := hexpired hip
          exact hnone id hid
      unfold FlowsTransmitter.addFlow
      simp only [hip, scanExpired_panics h hscan, Option.bind_eq_bind, Option.bind_none]

/-- The thread is there to be told about a flow, or there is no such flow. -/
def CanTell (tx : FlowsTransmitter) (handle : FlowHandle) : Prop :=
  tx.receiverGone = false ∨ tx.getFlow handle = none

theorem removeFlow_unchanged (h : tx.Tables) {handle : FlowHandle} (hcan : tx.CanTell handle) :
    ∃ tx' r, tx.removeFlow handle = some (tx', r) ∧ ∀ e, r = .error e → tx' = tx := by
  unfold FlowsTransmitter.removeFlow
  cases hget : tx.getFlow handle with
  | none => exact ⟨_, _, rfl, fun _ _ => rfl⟩
  | some r =>
      rcases hcan with hopen | hnone
      · simp only [removeFlowInternal_eq h hopen (getFlow_flows hget), Option.bind_eq_bind,
          Option.bind_some]
        exact ⟨_, _, rfl, fun e he => by cases he⟩
      · rw [hget] at hnone
        cases hnone

theorem removeFlow_panics (h : tx.Tables) {handle : FlowHandle} (hcan : ¬ tx.CanTell handle) :
    tx.removeFlow handle = none := by
  unfold CanTell at hcan
  push Not at hcan
  obtain ⟨hgone, hget⟩ := hcan
  obtain ⟨r, hget⟩ := Option.ne_none_iff_exists'.mp hget
  have hnone : tx.removeFlowInternal r.1 = none :=
    removeFlowInternal_gone h (Bool.eq_true_of_not_eq_false hgone) (getFlow_flows hget)
  simp only [FlowsTransmitter.removeFlow, hget, hnone, Option.bind_eq_bind, Option.bind_none]

theorem setChannels_unchanged (h : tx.Tables) {handle : FlowHandle} (hcan : tx.CanTell handle)
    (chs : List (Option Nat)) :
    ∃ tx' r, tx.setChannels handle chs = some (tx', r) ∧ ∀ e, r = .error e → tx' = tx := by
  unfold FlowsTransmitter.setChannels
  cases hget : tx.getFlow handle with
  | none => exact ⟨_, _, rfl, fun _ _ => rfl⟩
  | some r =>
      rcases hcan with hopen | hnone
      · obtain ⟨info, hinfo⟩ := h.info _ _ (getFlow_flows hget)
        simp only [send_eq hopen, hinfo, Option.bind_eq_bind, Option.bind_some]
        exact ⟨_, _, rfl, fun e he => by cases he⟩
      · rw [hget] at hnone
        cases hnone

theorem setChannels_panics {handle : FlowHandle} (hcan : ¬ tx.CanTell handle)
    (chs : List (Option Nat)) : tx.setChannels handle chs = none := by
  unfold CanTell at hcan
  push Not at hcan
  obtain ⟨hgone, hget⟩ := hcan
  obtain ⟨r, hget⟩ := Option.ne_none_iff_exists'.mp hget
  have hsend := send_gone (Bool.eq_true_of_not_eq_false hgone) (.setChannels r.1 chs)
  simp only [FlowsTransmitter.setChannels, hget, hsend, Option.bind_eq_bind, Option.bind_none]

end FlowsTransmitter

/-! ## Reading a request -/

open FlowsTransmitter

/-- A string at an offset has an end, or is refused for its offset; at offset
zero the whole datagram is taken. -/
def Terminated (b : List Byte) (offset : Nat) : Prop :=
  offset = 0 ∨ b.length ≤ offset ∨ 0 ∈ b.drop offset

theorem read0term_none_iff (b : List Byte) (offset : Nat) :
    read0termStrFromBuffer b offset = none ↔ ¬ Terminated b offset := by
  unfold read0termStrFromBuffer Terminated
  split
  · next hge =>
      exact ⟨fun h => (Option.some_ne_none _ h).elim, fun h => absurd (Or.inr (Or.inl hge)) h⟩
  next hlt =>
  dsimp only
  cases hfind : (b.drop offset).findIdx? (· = 0) with
  | some x =>
      have hx : x < (b.drop offset).length := (List.findIdx?_eq_some_iff_getElem.mp hfind).1
      have hmem : (0 : Byte) ∈ b.drop offset := by
        obtain ⟨hx, hzero, _⟩ := List.findIdx?_eq_some_iff_getElem.mp hfind
        exact List.mem_iff_getElem.mpr ⟨x, hx, of_decide_eq_true hzero⟩
      dsimp only
      rw [if_pos (Nat.le_of_lt hx)]
      exact ⟨fun h => (Option.some_ne_none _ h).elim, fun h => absurd (Or.inr (Or.inr hmem)) h⟩
  | none =>
      have hnot : (0 : Byte) ∉ b.drop offset := fun hmem =>
        absurd (List.findIdx?_eq_none_iff.mp hfind 0 hmem) (by decide)
      dsimp only
      rw [List.length_drop]
      constructor
      · intro h hor
        split at h
        · exact Option.some_ne_none _ h
        · next hlong => rcases hor with rfl | hge | hmem <;> first | omega | exact hnot hmem
      · intro h
        rw [if_neg]
        intro hle
        exact h (Or.inl (by omega))

/-- The fields of a flow request. -/
def hostnameOffset (request : List Byte) : Nat := (u16At (request.drop HEADER_LENGTH) 0).toNat

def requestedRate (request : List Byte) : BitVec 32 := u32At (request.drop HEADER_LENGTH) 2

def numChannels (request : List Byte) : Nat := (u16At (request.drop HEADER_LENGTH) 12).toNat

def remoteDescrOffset (request : List Byte) : Nat := (u16At (request.drop HEADER_LENGTH) 14).toNat

def requestedChannels (request : List Byte) : List (Option Nat) :=
  channelIds (request.drop HEADER_LENGTH) 16 (numChannels request)

/-- The position behind the channels. -/
def tailOffset (request : List Byte) : Nat :=
  (16 + u16At (request.drop HEADER_LENGTH) 12 * 2 + 6).toNat

def requestedFpp (request : List Byte) : Nat :=
  (u16At (request.drop HEADER_LENGTH) (tailOffset request)).toNat

def flowNameOffset (request : List Byte) : Nat :=
  (u16At (request.drop HEADER_LENGTH) (tailOffset request + 2)).toNat

def requestedDst (request : List Byte) : SocketAddr :=
  ⟨u32At request (remoteDescrOffset request + 4), u16At request (remoteDescrOffset request + 2)⟩

/-- The channels and what follows them are there. -/
def Complete (request : List Byte) : Prop :=
  16 + numChannels request * 2 + 6 + 4 ≤ (request.drop HEADER_LENGTH).length

/-- There is a string in UTF-8 at an offset. -/
def IsString (request : List Byte) (offset : Nat) : Prop :=
  ∃ s, read0termStrFromBuffer request offset = some (some s)

/-- Everything in the request can be read. -/
structure RequestReadable (request : List Byte) : Prop where
  complete : Complete request
  hostname : IsString request (hostnameOffset request)
  flowName : IsString request (flowNameOffset request)
  descr : remoteDescrOffset request + 8 ≤ request.length

/-- The strings that are read have an end. -/
def StringsEnd (request : List Byte) : Prop :=
  Complete request → Terminated request (hostnameOffset request) ∧
    (IsString request (hostnameOffset request) → Terminated request (flowNameOffset request))

theorem IsString.terminated {request : List Byte} {offset : Nat} (h : IsString request offset) :
    Terminated request offset := by
  obtain ⟨s, hs⟩ := h
  by_contra hnot
  rw [(read0term_none_iff request offset).mpr hnot] at hs
  cases hs

/-- The three ways a request with its fixed part goes. -/
theorem parseRequest_cases (selfInfo : DeviceInfo) {request : List Byte}
    (hfixed : 16 ≤ (request.drop HEADER_LENGTH).length) :
    (¬ StringsEnd request ∧ parseRequest selfInfo request = .panic) ∨
    (StringsEnd request ∧ ¬ RequestReadable request ∧
      parseRequest selfInfo request = .skip [respondWithCode request 0x0302 []]) ∨
    (StringsEnd request ∧ RequestReadable request ∧ ∃ r : FlowRequest,
      r.info.localChannelIndices = requestedChannels request ∧ r.info.dst = requestedDst request ∧
      r.fpp = requestedFpp request ∧ parseRequest selfInfo request =
        checkRequest selfInfo request (requestedRate request) r) := by
  unfold parseRequest
  dsimp only
  rw [if_neg (Nat.not_lt.mpr hfixed)]
  by_cases hcomplete : Complete request
  swap
  · have hshort : (request.drop HEADER_LENGTH).length <
        16 + (u16At (request.drop HEADER_LENGTH) 12).toNat * 2 + 6 + 4 := Nat.not_le.mp hcomplete
    refine Or.inr (Or.inl ⟨fun h => absurd h hcomplete, fun h => hcomplete h.complete, ?_⟩)
    rw [if_pos hshort]
  have hlong : ¬ (request.drop HEADER_LENGTH).length <
      16 + (u16At (request.drop HEADER_LENGTH) 12).toNat * 2 + 6 + 4 := Nat.not_lt.mpr hcomplete
  rw [if_neg hlong]
  rcases hhost : read0termStrFromBuffer request (hostnameOffset request) with _ | _ | hostname
  · refine Or.inl ⟨fun h => ?_, ?_⟩
    · exact (read0term_none_iff _ _).mp hhost (h hcomplete).1
    · unfold hostnameOffset at hhost
      rw [hhost]
  · have hnot : ¬ IsString request (hostnameOffset request) := by
      rintro ⟨s, hs⟩
      rw [hhost] at hs
      cases hs
    have hend : Terminated request (hostnameOffset request) := by
      by_contra hopen
      rw [(read0term_none_iff _ _).mpr hopen] at hhost
      cases hhost
    refine Or.inr (Or.inl ⟨fun _ => ⟨hend, fun h => absurd h hnot⟩, fun h => hnot h.hostname, ?_⟩)
    unfold hostnameOffset at hhost
    rw [hhost]
  have hstr : IsString request (hostnameOffset request) := ⟨hostname, hhost⟩
  unfold hostnameOffset at hhost
  rw [hhost]
  dsimp only
  rcases hname : read0termStrFromBuffer request (flowNameOffset request) with _ | _ | rxFlowName
  · refine Or.inl ⟨fun h => ?_, ?_⟩
    · exact (read0term_none_iff _ _).mp hname ((h hcomplete).2 hstr)
    · unfold flowNameOffset tailOffset at hname
      rw [hname]
  · have hnot : ¬ IsString request (flowNameOffset request) := by
      rintro ⟨s, hs⟩
      rw [hname] at hs
      cases hs
    have hend : Terminated request (flowNameOffset request) := by
      by_contra hopen
      rw [(read0term_none_iff _ _).mpr hopen] at hname
      cases hname
    refine Or.inr (Or.inl ⟨fun _ => ⟨hstr.terminated, fun _ => hend⟩,
      fun h => hnot h.flowName, ?_⟩)
    unfold flowNameOffset tailOffset at hname
    rw [hname]
  have hstr' : IsString request (flowNameOffset request) := ⟨rxFlowName, hname⟩
  have hends : StringsEnd request := fun _ => ⟨hstr.terminated, fun _ => hstr'.terminated⟩
  unfold flowNameOffset tailOffset at hname
  rw [hname]
  dsimp only
  by_cases hdescr : remoteDescrOffset request + 8 ≤ request.length
  · refine Or.inr (Or.inr ⟨hends, ⟨hcomplete, hstr, hstr', hdescr⟩, _, ?_, ?_, ?_,
      if_neg (Nat.not_lt.mpr hdescr)⟩)
    · rfl
    · rfl
    · rfl
  · exact Or.inr (Or.inl ⟨hends, fun h => hdescr h.descr, if_pos (Nat.not_le.mp hdescr)⟩)

/-! ## Answers -/

/-- There is one answer, and the flows are left alone if it is an error. -/
def OneAnswer (tx : FlowsTransmitter) (served : Option (FlowsTransmitter × List Response)) :
    Prop :=
  ∃ tx' answer, served = some (tx', [answer]) ∧ (answer.opcode2 ≠ 1 → tx.Reclaimed tx')

def AnsweredOnce (selfInfo : DeviceInfo) (env : AddFlowEnv) (tx : FlowsTransmitter)
    (request : List Byte) : Prop :=
  OneAnswer tx (handleDatagram selfInfo env request tx)

/-- A flow request the server gives one answer to. -/
structure RequestAnswerable (selfInfo : DeviceInfo) (tx : FlowsTransmitter)
    (request : List Byte) : Prop where
  strings : StringsEnd request
  channels : RequestReadable request → ∀ ch, some ch ∈ requestedChannels request →
    ch < selfInfo.txChannels
  thread : RequestReadable request → requestedRate request = selfInfo.sampleRate →
    requestedFpp request ≤ FPP_MAX → tx.CanAdd (requestedDst request)

/-- The channels of an update are there. -/
def UpdateComplete (request : List Byte) : Prop :=
  8 ≤ (request.drop HEADER_LENGTH).length ∧
    8 + (u16At (request.drop HEADER_LENGTH) 6).toNat * 2 ≤ (request.drop HEADER_LENGTH).length

/-- A datagram the server gives one answer to. -/
structure Answerable (selfInfo : DeviceInfo) (tx : FlowsTransmitter) (request : List Byte) :
    Prop where
  flowRequest : u16At request 6 = 0x0100 → RequestAnswerable selfInfo tx request
  stop : u16At request 6 = 0x0101 → (request.drop HEADER_LENGTH).length = 6 →
    tx.CanTell (request.drop HEADER_LENGTH)
  update : u16At request 6 = 0x0102 → UpdateComplete request →
    tx.CanTell ((request.drop HEADER_LENGTH).take 6)

section

variable {tx : FlowsTransmitter}

theorem not_oneAnswer_none : ¬ OneAnswer tx none := by
  rintro ⟨_, _, h, _⟩
  cases h

theorem oneAnswer_skip {A : Type} (f : A → Option (FlowsTransmitter × Response)) (r : Response) :
    OneAnswer tx (Parsed.serve tx f (.skip [r])) :=
  ⟨tx, r, rfl, fun _ => Reclaimed.refl tx⟩

/-- An answer that is not the last one is one too many. -/
theorem not_oneAnswer_act {A : Type} (f : A → Option (FlowsTransmitter × Response))
    (r : Response) (a : A) : ¬ OneAnswer tx (Parsed.serve tx f (.act [r] a)) := by
  rintro ⟨tx', answer, h, _⟩
  obtain ⟨s, _, h⟩ := Option.bind_eq_some_iff.mp h
  have hlist := congrArg Prod.snd (Option.some.inj h)
  exact List.cons_ne_nil _ _ (List.cons.inj hlist).2

theorem oneAnswer_act_iff {A : Type} (f : A → Option (FlowsTransmitter × Response)) (a : A) :
    OneAnswer tx (Parsed.serve tx f (.act [] a)) ↔
      ∃ tx' answer, f a = some (tx', answer) ∧ (answer.opcode2 ≠ 1 → tx.Reclaimed tx') := by
  constructor
  · rintro ⟨tx', answer, h, hreclaims⟩
    obtain ⟨⟨tx₁, r⟩, hf, h⟩ := Option.bind_eq_some_iff.mp h
    cases h
    exact ⟨_, _, hf, hreclaims⟩
  · rintro ⟨tx', answer, hf, hreclaims⟩
    refine ⟨tx', answer, ?_, hreclaims⟩
    simp only [Parsed.serve, hf, Option.bind_eq_bind, Option.bind_some, List.nil_append]

theorem request_oneAnswer_iff (h : tx.Tables) (selfInfo : DeviceInfo) (env : AddFlowEnv)
    {request : List Byte} (hfixed : 16 ≤ (request.drop HEADER_LENGTH).length) :
    OneAnswer tx ((parseRequest selfInfo request).serve tx fun r => do
      let (tx, result) ← tx.addFlow r.info r.fpp r.bytesPerSample none false env
      match result with
      | .ok (_, handle) => some (tx, respond request handle)
      | .error _ => some (tx, respondWithCode request 0x0315 [])) ↔
    RequestAnswerable selfInfo tx request := by
  rcases parseRequest_cases selfInfo hfixed with ⟨hstr, hparse⟩ | ⟨hstr, hnot, hparse⟩ |
    ⟨hstr, hread, r, hch, hdst, hfpp, hparse⟩
  · rw [hparse]
    exact ⟨fun hone => absurd hone not_oneAnswer_none, fun hans => absurd hans.strings hstr⟩
  · rw [hparse]
    exact ⟨fun _ => ⟨hstr, fun hread => absurd hread hnot, fun hread => absurd hread hnot⟩,
      fun _ => oneAnswer_skip _ _⟩
  rw [hparse, checkRequest]
  by_cases hlarge : r.info.localChannelIndices.any (·.any (selfInfo.txChannels ≤ ·)) = true
  · -- answered already, whatever comes next
    have hnot : ¬ RequestAnswerable selfInfo tx request := by
      intro hans
      obtain ⟨o, hmem, hany⟩ := List.any_eq_true.mp hlarge
      rcases o with _ | ch
      · cases hany
      rw [hch] at hmem
      exact absurd (of_decide_eq_true hany) (Nat.not_le.mpr (hans.channels hread ch hmem))
    refine ⟨fun hone => ?_, fun hans => absurd hans hnot⟩
    rw [if_pos hlarge] at hone
    dsimp only at hone
    split at hone
    · obtain ⟨_, _, hlist, _⟩ := hone
      cases hlist
    split at hone
    · obtain ⟨_, _, hlist, _⟩ := hone
      cases hlist
    · exact absurd hone (not_oneAnswer_act _ _ _)
  have hsmall : ∀ ch, some ch ∈ requestedChannels request → ch < selfInfo.txChannels := by
    intro ch hmem
    by_contra hge
    rw [← hch] at hmem
    exact hlarge (List.any_eq_true.mpr ⟨_, hmem, decide_eq_true (Nat.not_lt.mp hge)⟩)
  rw [if_neg hlarge]
  dsimp only
  by_cases hrate : requestedRate request = selfInfo.sampleRate
  swap
  · rw [if_pos hrate]
    exact ⟨fun _ => ⟨hstr, fun _ => hsmall, fun _ h => absurd h hrate⟩,
      fun _ => oneAnswer_skip _ _⟩
  rw [if_neg (not_not_intro hrate)]
  by_cases hbig : r.fpp > FPP_MAX
  · rw [if_pos hbig]
    rw [hfpp] at hbig
    exact ⟨fun _ => ⟨hstr, fun _ => hsmall, fun _ _ h => absurd h (Nat.not_le.mpr hbig)⟩,
      fun _ => oneAnswer_skip _ _⟩
  rw [if_neg hbig, oneAnswer_act_iff]
  by_cases hcan : tx.CanAdd r.info.dst
  · obtain ⟨tx', result, hadd, hreclaims⟩ :=
      addFlow_reclaims h hcan r.fpp r.bytesPerSample false env
    rw [hdst] at hcan
    refine ⟨fun _ => ⟨hstr, fun _ => hsmall, fun _ _ _ => hcan⟩, fun _ => ?_⟩
    simp only [hadd, Option.bind_eq_bind, Option.bind_some]
    cases result with
    | ok a => exact ⟨_, _, rfl, fun hcode => absurd rfl hcode⟩
    | error e => exact ⟨_, _, rfl, fun _ => hreclaims e rfl⟩
  · simp only [addFlow_panics h hcan, Option.bind_eq_bind, Option.bind_none]
    rw [hdst] at hcan
    rw [hfpp] at hbig
    exact ⟨fun ⟨_, _, hnone, _⟩ => (Option.some_ne_none _ hnone.symm).elim,
      fun hans => absurd (hans.thread hread hrate (Nat.not_lt.mp hbig)) hcan⟩

theorem stop_oneAnswer_iff (h : tx.Tables) (request : List Byte) :
    OneAnswer tx ((parseStop request).serve tx fun handle => do
      let (tx, result) ← tx.removeFlow handle
      match result with
      | .ok _ => some (tx, respond request [])
      | .error _ => some (tx, respondWithCode request 0x0103 [])) ↔
    ((request.drop HEADER_LENGTH).length = 6 → tx.CanTell (request.drop HEADER_LENGTH)) := by
  unfold parseStop
  dsimp only
  split
  swap
  · next hlen => exact ⟨fun _ hsix => absurd hsix hlen, fun _ => oneAnswer_skip _ _⟩
  next hlen =>
  rw [oneAnswer_act_iff]
  by_cases hcan : tx.CanTell (request.drop HEADER_LENGTH)
  · obtain ⟨tx', result, hremove, hsame⟩ := removeFlow_unchanged h hcan
    refine ⟨fun _ _ => hcan, fun _ => ?_⟩
    simp only [hremove, Option.bind_eq_bind, Option.bind_some]
    cases result with
    | ok a => exact ⟨_, _, rfl, fun hcode => absurd rfl hcode⟩
    | error e =>
        refine ⟨_, _, rfl, fun _ => ?_⟩
        rw [hsame e rfl]
        exact Reclaimed.refl tx
  · simp only [removeFlow_panics h hcan, Option.bind_eq_bind, Option.bind_none]
    exact ⟨fun ⟨_, _, hnone, _⟩ => (Option.some_ne_none _ hnone.symm).elim,
      fun hans => absurd (hans hlen) hcan⟩

theorem update_oneAnswer_iff (h : tx.Tables) (request : List Byte) :
    OneAnswer tx ((parseUpdate request).serve tx fun (handle, channelIndices) => do
      let (tx, result) ← tx.setChannels handle channelIndices
      match result with
      | .ok _ => some (tx, respond request [])
      | .error _ => some (tx, respondWithCode request 0x0103 [])) ↔
    (UpdateComplete request → tx.CanTell ((request.drop HEADER_LENGTH).take 6)) := by
  unfold parseUpdate
  dsimp only
  split
  · next hlen =>
      exact ⟨fun _ hc => absurd hc.1 (Nat.not_le.mpr hlen), fun _ => oneAnswer_skip _ _⟩
  next hlen =>
  split
  · next hshort =>
      exact ⟨fun _ hc => absurd hc.2 (Nat.not_le.mpr hshort), fun _ => oneAnswer_skip _ _⟩
  next hshort =>
  have hcomplete : UpdateComplete request := ⟨Nat.not_lt.mp hlen, Nat.not_lt.mp hshort⟩
  rw [oneAnswer_act_iff]
  by_cases hcan : tx.CanTell ((request.drop HEADER_LENGTH).take 6)
  · obtain ⟨tx', result, hset, hsame⟩ := setChannels_unchanged h hcan
      (channelIds (request.drop HEADER_LENGTH) 8 (u16At (request.drop HEADER_LENGTH) 6).toNat)
    refine ⟨fun _ _ => hcan, fun _ => ?_⟩
    simp only [hset, Option.bind_eq_bind, Option.bind_some]
    cases result with
    | ok a => exact ⟨_, _, rfl, fun hcode => absurd rfl hcode⟩
    | error e =>
        refine ⟨_, _, rfl, fun _ => ?_⟩
        rw [hsame e rfl]
        exact Reclaimed.refl tx
  · simp only [setChannels_panics hcan, Option.bind_eq_bind, Option.bind_none]
    exact ⟨fun ⟨_, _, hnone, _⟩ => (Option.some_ne_none _ hnone.symm).elim,
      fun hans => absurd (hans hcomplete) hcan⟩

end

/-- The code of a request the server knows. -/
def KnownRequest (request : List Byte) : Prop :=
  HEADER_LENGTH ≤ request.length ∧ u16At request 8 = 0 ∧
    (u16At request 6 = 0x0100 ∧ 16 ≤ (request.drop HEADER_LENGTH).length ∨
      u16At request 6 = 0x0101 ∨ u16At request 6 = 0x0102)

/-- In every state of the transmitter, a known request gets one answer, which
leaves the flows alone if it is an error, exactly if it is answerable. -/
theorem answered_once_iff (selfInfo : DeviceInfo) (env : AddFlowEnv) (sampleRate : BitVec 32)
    (flags : Flag → Bool) (events : List TxTablesEvent) (request : List Byte)
    (hknown : KnownRequest request) :
    AnsweredOnce selfInfo env (TxTables.run sampleRate (.start flags) events).tx request ↔
      Answerable selfInfo (TxTables.run sampleRate (.start flags) events).tx request := by
  have h := (TxTables.together_run (w := .start flags) (start_together flags) sampleRate
    events).tables
  obtain ⟨hlen, hop2, hop⟩ := hknown
  unfold AnsweredOnce handleDatagram
  rw [if_neg (Nat.not_lt.mpr hlen), if_neg (not_not_intro hop2)]
  rcases hop with ⟨hop, hfixed⟩ | hop | hop
  · rw [if_pos hop]
    refine (request_oneAnswer_iff h selfInfo env hfixed).trans ?_
    constructor
    · intro hans
      refine ⟨fun _ => hans, fun hother => ?_, fun hother => ?_⟩
      · rw [hop] at hother
        cases hother
      · rw [hop] at hother
        cases hother
    · exact fun hans => hans.flowRequest hop
  · rw [if_neg (by rw [hop]; decide), if_pos hop]
    refine (stop_oneAnswer_iff h request).trans ?_
    constructor
    · intro hans
      refine ⟨fun hother => ?_, fun _ => hans, fun hother => ?_⟩
      · rw [hop] at hother
        cases hother
      · rw [hop] at hother
        cases hother
    · exact fun hans => hans.stop hop
  · rw [if_neg (by rw [hop]; decide), if_neg (by rw [hop]; decide), if_pos hop]
    refine (update_oneAnswer_iff h request).trans ?_
    constructor
    · intro hans
      refine ⟨fun hother => ?_, fun hother => ?_, fun _ => hans⟩
      · rw [hop] at hother
        cases hother
      · rw [hop] at hother
        cases hother
    · exact fun hans => hans.update hop

open TxTables in
theorem answered_once_iff_sampleRequest :
    AnsweredOnce sampleInfo ⟨7, true⟩ (run 48000 (.start fun _ => false) []).tx
      (sampleRequest 16) := by
  have hchannels : requestedChannels (sampleRequest 16) = [some 0] := by decide
  refine (answered_once_iff sampleInfo ⟨7, true⟩ 48000 (fun _ => false) [] (sampleRequest 16)
    ⟨by decide, by decide, Or.inl ⟨by decide, by decide⟩⟩).mpr
    ⟨fun _ => ⟨fun _ => ⟨?_, fun _ => ?_⟩, fun _ ch hch => ?_, fun _ _ _ => Or.inl rfl⟩,
      fun hop => absurd hop (by decide), fun hop => absurd hop (by decide)⟩
  · exact Or.inr (Or.inr (by decide))
  · exact Or.inr (Or.inr (by decide))
  · rw [hchannels] at hch
    cases List.mem_singleton.mp hch
    decide

/-- A request for the third channel of a device that has two, from host `a`
for its flow `b` at 10.0.0.1:14336. -/
def sampleLargeChannel : List Byte :=
  [0x11, 0x02, 0x00, 0x32, 0x00, 0x01, 0x01, 0x00, 0x00, 0x00] ++
  [0x00, 0x26, 0x00, 0x00, 0xbb, 0x80, 0x00, 0x00, 0x00, 0x18, 0x00, 0x01, 0x00, 0x01, 0x00, 0x2a,
    0x00, 0x03, 0x00, 0x00, 0x00, 0x00, 0x00, 0x00, 0x00, 0x10, 0x00, 0x28, 0x61, 0x00, 0x62, 0x00,
    0x08, 0x02, 0x38, 0x00, 0x0a, 0x00, 0x00, 0x01]

open TxTables in
/-- The request is refused, and then granted all the same. -/
theorem large_channel_answered_twice :
    ¬ ∀ events request, KnownRequest request →
      AnsweredOnce sampleInfo ⟨7, true⟩ (run 48000 (.start fun _ => false) events).tx request := by
  intro h
  obtain ⟨tx', answer, hrun, _⟩ := h [] sampleLargeChannel
    ⟨by decide, by decide, Or.inl ⟨by decide, by decide⟩⟩
  have htwo : (handleDatagram sampleInfo ⟨7, true⟩ sampleLargeChannel
      (.start fun _ => false)).map (fun r => r.2.map Response.opcode2) =
        some [0x0302, 0x0001] := by
    decide
  rw [show handleDatagram sampleInfo ⟨7, true⟩ sampleLargeChannel (.start fun _ => false) =
    some (tx', [answer]) from hrun] at htwo
  have hlen := congrArg (Option.map List.length) htwo
  cases hlen

end Inferno
