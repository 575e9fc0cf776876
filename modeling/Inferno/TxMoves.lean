import Inferno.FlowsAnswers
import Inferno.TxTables

/-!
# What a call is made of

Whatever a call of `FlowsTransmitter` does to the flows, their flags and the
queue is done in a few moves: a live flow is removed, its channels are told, a
flow is inserted at a free id, a flow is activated (`call_moves`). What each
move keeps, every call keeps.
-/

namespace Inferno

/-- The flows with their flags, and what the thread is told of them. -/
structure TxCore where
  flows : Nat → Option FlowData
  commands : List TxCommand
  receiverGone : Bool
  flags : Flag → Bool
  nextFlag : Flag

def FlowsTransmitter.core (tx : FlowsTransmitter) : TxCore where
  flows := tx.flows
  commands := tx.commands
  receiverGone := tx.receiverGone
  flags := tx.flags
  nextFlag := tx.nextFlag

inductive TxMove where
  | remove (id : Nat)
  | tell (id : Nat) (channelIndices : List (Option Nat))
  | insert (id : Nat) (cookie : BitVec 16) (dst : SocketAddr)
      (channelIndices : List (Option Nat)) (fpp bytesPerSample : Nat) (isMulticast : Bool)
  | activate (id : Nat)

namespace TxMove

/-- A move; nothing is told to a thread that is gone. -/
def apply (k : TxCore) : TxMove → TxCore
  | .remove id =>
      { k with
        flows := Function.update k.flows id none
        commands := if k.receiverGone then k.commands else k.commands ++ [.removeFlow id] }
  | .tell id channelIndices =>
      { k with commands := k.commands ++ [.setChannels id channelIndices] }
  | .insert id cookie dst channelIndices fpp bytesPerSample isMulticast =>
      { k with
        flows := Function.update k.flows id (some ⟨cookie, dst, k.nextFlag⟩)
        commands := k.commands ++
          [.addFlow id dst channelIndices fpp bytesPerSample (!isMulticast) k.nextFlag]
        flags := Function.update k.flags k.nextFlag isMulticast
        nextFlag := k.nextFlag + 1 }
  | .activate id =>
      match k.flows id with
      | some flow => { k with flags := Function.update k.flags flow.expired false }
      | none => k

def Legal (k : TxCore) : TxMove → Prop
  | .remove id => (k.flows id).isSome
  | .tell id _ => k.receiverGone = false ∧ (k.flows id).isSome
  | .insert id _ _ _ _ _ _ => k.receiverGone = false ∧ k.flows id = none ∧ id < MAX_FLOWS
  | .activate _ => True

end TxMove

namespace TxCore

def moves (k : TxCore) (ms : List TxMove) : TxCore := ms.foldl TxMove.apply k

/-- Each move can be made when its turn comes. -/
def LegalMoves : TxCore → List TxMove → Prop
  | _, [] => True
  | k, m :: ms => m.Legal k ∧ LegalMoves (m.apply k) ms

theorem LegalMoves.append {k : TxCore} {ms ms' : List TxMove} (h : k.LegalMoves ms)
    (h' : (k.moves ms).LegalMoves ms') : k.LegalMoves (ms ++ ms') := by
  induction ms generalizing k with
  | nil => exact h'
  | cons m ms ih => exact ⟨h.1, ih h.2 h'⟩

theorem moves_append (k : TxCore) (ms ms' : List TxMove) :
    k.moves (ms ++ ms') = (k.moves ms).moves ms' := List.foldl_append

/-- What a removal keeps, a scan keeps. -/
theorem LegalMoves.removes {I : TxCore → Prop}
    (hstep : ∀ k id, I k → (k.flows id).isSome → I ((TxMove.remove id).apply k)) {k : TxCore}
    {ids : List Nat} (hlegal : k.LegalMoves (ids.map TxMove.remove)) (h : I k) :
    I (k.moves (ids.map TxMove.remove)) := by
  induction ids generalizing k with
  | nil => exact h
  | cons id ids ih => exact ih hlegal.2 (hstep k id h hlegal.1)

theorem LegalMoves.of_append {k : TxCore} {ms ms' : List TxMove}
    (h : k.LegalMoves (ms ++ ms')) : k.LegalMoves ms ∧ (k.moves ms).LegalMoves ms' := by
  induction ms generalizing k with
  | nil => exact ⟨trivial, h⟩
  | cons m ms ih =>
      obtain ⟨h₁, h₂⟩ := ih h.2
      exact ⟨⟨h.1, h₁⟩, h₂⟩

end TxCore

namespace FlowsTransmitter

section

variable {slots : List (Option Flow)} {tx : FlowsTransmitter}

/-- The moves a call is made of. -/
def MovesOf (tx : FlowsTransmitter) (ms : List TxMove) : TxCall → Prop
  | .addFlow info fpp bytesPerSample _ isMulticast env =>
      match tx.ipPortToId info.dst with
      | some id => ms = [] ∨ ms = [.tell id info.localChannelIndices]
      | none => ∃ (ids : List Nat) (added : List TxMove),
          ms = ids.map TxMove.remove ++ added ∧ (∀ id ∈ ids, tx.isExpired id = some true) ∧
            (added = [] ∨ ∃ id, added = [.insert id env.cookie info.dst info.localChannelIndices
              fpp bytesPerSample isMulticast])
  | .removeFlow handle =>
      ms = [] ∨ ∃ id flow, tx.getFlow handle = some (id, flow) ∧ ms = [.remove id]
  | .removeMulticastFlow index => ms = [] ∨ ms = [.remove index]
  | .setChannels handle channelIndices =>
      ms = [] ∨ ∃ id flow, tx.getFlow handle = some (id, flow) ∧ ms = [.tell id channelIndices]
  | .activateMulticastFlow flowIndex => ms = [.activate flowIndex]

/-- The call is made of such moves. -/
def MadeOf (tx tx' : FlowsTransmitter) (ms : List TxMove) : Prop :=
  tx.core.LegalMoves ms ∧ tx'.core = tx.core.moves ms

theorem MadeOf.nil {tx' : FlowsTransmitter} (h : tx'.core = tx.core) : MadeOf tx tx' [] :=
  ⟨trivial, h⟩

theorem MadeOf.append {tx₁ tx₂ : FlowsTransmitter} {ms ms' : List TxMove}
    (h : MadeOf tx tx₁ ms) (h' : MadeOf tx₁ tx₂ ms') : MadeOf tx tx₂ (ms ++ ms') := by
  refine ⟨h.1.append ?_, ?_⟩
  · rw [← h.2]
    exact h'.1
  · rw [TxCore.moves_append, ← h.2]
    exact h'.2

theorem saveState_core (tx : FlowsTransmitter) : tx.saveState.core = tx.core := by
  simp only [saveState]
  split <;> rfl

theorem removeLeaves_core (h : tx.Tables) {id : Nat} {flow : FlowData}
    (hid : tx.flows id = some flow) :
    (tx.removeLeaves id).core = (TxMove.remove id).apply tx.core := by
  unfold removeLeaves
  cases hopen : tx.receiverGone with
  | false =>
      rw [removeFlowInternal_eq h hopen hid]
      simp [core, TxMove.apply, hopen]
  | true =>
      rw [removeFlowInternal_gone h hopen hid, forget_eq hid]
      simp [core, TxMove.apply, hopen]

theorem removeLeaves_madeOf (h : tx.Tables) {id : Nat} {flow : FlowData}
    (hid : tx.flows id = some flow) : MadeOf tx (tx.removeLeaves id) [.remove id] :=
  ⟨⟨Option.isSome_iff_exists.mpr ⟨flow, hid⟩, trivial⟩, removeLeaves_core h hid⟩

/-- The scan removes some of the flows it has found. -/
theorem removeAllLeaves_madeOf (h : tx.Together slots) {ids : List Nat} (hnodup : ids.Nodup)
    (hlive : ∀ id ∈ ids, (tx.flows id).isSome) :
    ∃ ids' : List Nat, (∀ id ∈ ids', id ∈ ids) ∧
      MadeOf tx (tx.removeAllLeaves ids) (ids'.map TxMove.remove) := by
  induction ids generalizing tx with
  | nil => exact ⟨[], fun _ hid => hid, MadeOf.nil rfl⟩
  | cons id ids ih =>
      obtain ⟨flow, hflow⟩ := Option.isSome_iff_exists.mp (hlive id List.mem_cons_self)
      obtain ⟨hnot, hnodup⟩ := List.nodup_cons.mp hnodup
      have h₁ := removeLeaves_madeOf h.tables hflow
      have ht₁ := h.removeLeaves hflow
      obtain ⟨hf, _⟩ := removeLeaves_fields h.tables hflow
      rw [FlowsTransmitter.removeAllLeaves]
      cases hrun : tx.removeFlowInternal id with
      | none => exact ⟨[id], fun _ hid => by simp [List.mem_singleton.mp hid], h₁⟩
      | some tx₁ =>
          rw [removeLeaves_of_some hrun] at h₁ ht₁ hf
          obtain ⟨ids', hsub, hrest⟩ := ih ht₁ hnodup fun id' hid' => by
            have hne : id' ≠ id := fun heq => hnot (heq ▸ hid')
            rw [hf, Function.update_of_ne hne]
            exact hlive id' (List.mem_cons_of_mem _ hid')
          refine ⟨id :: ids', fun id' hid' => ?_, h₁.append hrest⟩
          rcases List.mem_cons.mp hid' with rfl | hid'
          · exact List.mem_cons_self
          · exact List.mem_cons_of_mem _ (hsub id' hid')

theorem scanLeaves_madeOf (h : tx.Together slots) :
    ∃ ids : List Nat, (∀ id ∈ ids, tx.isExpired id = some true) ∧
      MadeOf tx tx.scanLeaves (ids.map TxMove.remove) := by
  obtain ⟨ids, hids, hsub, hlive⟩ := h.tables.expiredIds (List.range MAX_FLOWS)
  obtain ⟨ids', hsub', hmade⟩ := removeAllLeaves_madeOf h (hsub.nodup List.nodup_range) hlive
  refine ⟨ids', fun id hid => ((expiredIds_mem hids id).mp (hsub' id hid)).2, ?_⟩
  rw [FlowsTransmitter.scanLeaves, hids]
  exact hmade

theorem tell_madeOf (hopen : tx.receiverGone = false) {id : Nat} {flow : FlowData}
    (hid : tx.flows id = some flow) (chs : List (Option Nat)) {tx' : FlowsTransmitter}
    (h : tx'.core = { tx.core with commands := tx.commands ++ [.setChannels id chs] }) :
    MadeOf tx tx' [.tell id chs] :=
  ⟨⟨⟨hopen, Option.isSome_iff_exists.mpr ⟨flow, hid⟩⟩, trivial⟩, h⟩

theorem insertFlow_madeOf (h : tx.Tables) {id : Nat} (hlt : id < MAX_FLOWS)
    (hfree : tx.flows id = none) (info : FlowInfo) (fpp bytesPerSample : Nat) (isMulticast : Bool)
    (cookie : BitVec 16) :
    ∃ added, (added = [] ∨ added = [.insert id cookie info.dst info.localChannelIndices fpp
        bytesPerSample isMulticast]) ∧
      MadeOf tx (tx.insertFlow info fpp bytesPerSample isMulticast cookie id).1 added := by
  rw [FlowsTransmitter.insertFlow]
  split
  · exact ⟨[], Or.inl rfl, MadeOf.nil rfl⟩
  · next hgone =>
      dsimp only
      rw [register_eq (h.length ▸ hlt)]
      refine ⟨_, Or.inr rfl, ⟨⟨Bool.eq_false_iff.mpr hgone, hfree, hlt⟩, trivial⟩, ?_⟩
      rw [saveState_core]
      rfl

/-! ## The calls -/

/-- No channels are told, or the thread is told those of the request; or the
scan removes flows and then one is added or none. -/
theorem Added.madeOf {info : FlowInfo} {fpp bytesPerSample : Nat} {isMulticast : Bool}
    {env : AddFlowEnv} {tx' : FlowsTransmitter} (h : tx.Together slots)
    (hadded : tx.Added info fpp bytesPerSample isMulticast env.cookie tx')
    (requestedFlowIndex : Option Nat) :
    ∃ ms, tx.MovesOf ms (.addFlow info fpp bytesPerSample requestedFlowIndex isMulticast env) ∧
      MadeOf tx tx' ms := by
  unfold MovesOf
  dsimp only
  cases hadded with
  | untold hip =>
      rw [hip]
      exact ⟨[], Or.inl rfl, MadeOf.nil rfl⟩
  | told hip hopen hflow hdst =>
      rw [hip]
      refine ⟨_, Or.inr rfl, tell_madeOf hopen hflow _ ?_⟩
      rw [saveState_core]
      rfl
  | scanned n hip =>
      obtain ⟨ids, hexpired, hmade⟩ := scanLeaves_madeOf h
      rw [hip]
      exact ⟨_, ⟨ids, [], (List.append_nil _).symm, hexpired, Or.inl rfl⟩, hmade⟩
  | @inserted n id hip hfree hlt =>
      obtain ⟨ids, hexpired, hmade⟩ := scanLeaves_madeOf h
      obtain ⟨ht₁, _⟩ := h.scanLeaves
      have ht₂ : Tables { tx.scanLeaves with flowSeqId := n } := ht₁.tables.congr rfl rfl rfl
      rw [ht₁.tables.length, or_self] at hlt
      obtain ⟨added, hadded, hinsert⟩ := insertFlow_madeOf ht₂ hlt hfree info fpp
        bytesPerSample isMulticast env.cookie
      rw [hip]
      refine ⟨_, ⟨ids, added, rfl, hexpired, ?_⟩, MadeOf.append hmade hinsert⟩
      exact hadded.imp_right fun heq => ⟨id, heq⟩

theorem Removed.madeOf {tx' : FlowsTransmitter} {id : Nat} (h : tx.Tables)
    (hremoved : tx.Removed id tx') {flow : FlowData} (hflow : tx.flows id = some flow) :
    MadeOf tx tx' [.remove id] := by
  have h₁ := removeLeaves_madeOf h hflow
  cases hremoved with
  | unsaved => exact h₁
  | saved => exact ⟨h₁.1, (saveState_core _).trans h₁.2⟩

/-- Each call is made of its moves. -/
theorem call_moves (h : tx.Together slots) (c : TxCall) :
    ∃ ms, tx.MovesOf ms c ∧ MadeOf tx (c.leaves tx) ms := by
  cases c with
  | addFlow info fpp bytesPerSample requested isMulticast env =>
      exact (added_of_addFlow h.tables info fpp bytesPerSample requested isMulticast env).madeOf h
        requested
  | removeFlow handle =>
      rcases tx.removed_of_removeFlow handle with heq | ⟨id, flow, hget, hremoved⟩
      · rw [heq]
        exact ⟨[], Or.inl rfl, MadeOf.nil rfl⟩
      · exact ⟨_, Or.inr ⟨id, flow, hget, rfl⟩, hremoved.madeOf h.tables (getFlow_flows hget)⟩
  | removeMulticastFlow index =>
      rcases removed_of_removeMulticastFlow h.tables index with heq | ⟨flow, hflow, hremoved⟩
      · rw [heq]
        exact ⟨[], Or.inl rfl, MadeOf.nil rfl⟩
      · exact ⟨_, Or.inr rfl, hremoved.madeOf h.tables hflow⟩
  | setChannels handle chs =>
      rcases setChannels_leaves h.tables handle chs with
        heq | ⟨id, flow, info, hopen, hget, hinfo, heq⟩
      · rw [heq]
        exact ⟨[], Or.inl rfl, MadeOf.nil rfl⟩
      · rw [heq]
        exact ⟨_, Or.inr ⟨id, flow, hget, rfl⟩, tell_madeOf hopen (getFlow_flows hget) chs rfl⟩
  | activateMulticastFlow flowIndex =>
      refine ⟨_, rfl, ⟨trivial, trivial⟩, ?_⟩
      unfold TxCall.leaves FlowsTransmitter.activateMulticastFlow
      cases hflow : tx.flows flowIndex <;>
        simp [hflow, core, TxCore.moves, TxMove.apply]

end

end FlowsTransmitter

end Inferno
