import Inferno.FlowsAnswers
import Inferno.MulticastMap

/-!
# When creating or deleting a bundle panics

The bundles have their places and the transmitter's tables agree, whatever is
done (`Tabled`). In such a state `add_flow` panics if the place is taken, or if
the scan for expired flows has to tell a thread that is gone; `remove_flow`
panics beyond the last place, at a thread that is gone, or at a channel that
the device does not have.
-/

namespace Inferno

open FlowsTransmitter

/-- What holds of the bundles and the transmitter at any time. -/
structure TransmitMulticasts.Tabled (w : TransmitMulticasts) : Prop where
  bundles : w.bundles.length = MAX_FLOWS
  tables : ∀ t, w.flowsTx = some t → t.tx.Together t.slots

namespace FlowsTransmitter

variable {tx : FlowsTransmitter} {slots : List (Option Flow)}

theorem scanExpired_isSome_iff (h : tx.Tables) : tx.scanExpired.isSome ↔ tx.CanScan := by
  by_cases hscan : tx.CanScan
  · obtain ⟨tx', hrun, _⟩ := scanExpired_reclaims h hscan
    rw [hrun]
    exact iff_of_true rfl hscan
  · rw [scanExpired_panics h hscan]
    exact iff_of_false Bool.false_ne_true hscan

/-- Adding a flow at an index and a new destination panics only in the scan. -/
theorem Together.addFlow_isSome_iff (h : tx.Together slots) {info : FlowInfo}
    (hdst : tx.ipPortToId info.dst = none) {id : Nat} (hid : id < MAX_FLOWS)
    (fpp bytesPerSample : Nat) (isMulticast : Bool) (env : AddFlowEnv) :
    (tx.addFlow info fpp bytesPerSample (some id) isMulticast env).isSome ↔ tx.CanScan := by
  rw [← scanExpired_isSome_iff h.tables, FlowsTransmitter.addFlow, hdst]
  dsimp only
  cases hscan : tx.scanExpired with
  | none => exact Iff.rfl
  | some tx₁ =>
      obtain ⟨ht₁, _⟩ := h.scanLeaves
      rw [scanLeaves_of_some hscan] at ht₁
      refine iff_of_true ?_ rfl
      have hlt : id < tx₁.flowsInfo.length := ht₁.tables.length ▸ hid
      simp only [Option.bind_eq_bind, Option.bind_some, chooseIndex]
      rw [List.getElem?_eq_getElem hlt]
      split
      · rfl
      · cases tx₁.flowsInfo[id] with
        | some i => rfl
        | none =>
            simp only [Option.bind_some]
            split <;> rfl

end FlowsTransmitter

namespace TransmitMulticasts

variable {dev : MulticastDevice} {w : TransmitMulticasts}

/-- The fields the invariant is about. -/
theorem Tabled.congr {w' : TransmitMulticasts} (h : w.Tabled)
    (hb : w'.bundles.length = w.bundles.length) (ht : w'.flowsTx = w.flowsTx) : w'.Tabled :=
  ⟨hb.trans h.bundles, by rw [ht]; exact h.tables⟩

/-- A call on the transmitter. -/
theorem Tabled.call {w' : TransmitMulticasts} (h : w.Tabled) {t : TxTables}
    (ht : w.flowsTx = some t) (hb : w'.bundles.length = w.bundles.length) (c : TxCall)
    (ht' : w'.flowsTx = some { t with tx := c.leaves t.tx }) : w'.Tabled := by
  refine ⟨hb.trans h.bundles, fun t' heq => ?_⟩
  rw [ht'] at heq
  cases heq
  exact (h.tables t ht).call c

theorem Tabled.insertBundle (h : w.Tabled) (i : Nat) (chs : List (Option Nat))
    (dstAddr : BitVec 32) (dstPort : BitVec 16) : (w.insertBundle i chs dstAddr dstPort).Tabled :=
  h.congr List.length_set rfl

theorem Tabled.addFlowInternal (h : w.Tabled) (i : Nat) (chs : List (Option Nat))
    (preferred : BitVec 32) (draw : MulticastDraw) :
    (addFlowInternal dev w i chs preferred draw).Tabled := by
  unfold TransmitMulticasts.addFlowInternal
  split
  · split
    · exact h.insertBundle i chs 0 0
    next t ht =>
      dsimp only
      split
      · exact h
      next dstAddr dstPort hdst =>
        have hw : Tabled { w with flowsTx := some { t with tx := (addBundleFlow dev t.tx i
            (flowInfo dstAddr dstPort chs) draw.flow).1 } } :=
          h.call ht rfl (.addFlow _ _ _ _ _ _) rfl
        split
        · exact hw.insertBundle i chs dstAddr dstPort
        · exact hw.congr rfl rfl
  · exact h.congr rfl rfl

theorem Tabled.removeFlowInternal (h : w.Tabled) (i : Nat) (ignoreNonexisting : Bool) :
    (removeFlowInternal dev w i ignoreNonexisting).1.Tabled := by
  unfold TransmitMulticasts.removeFlowInternal
  split
  · exact h.congr rfl rfl
  · exact h
  next bundle hb =>
    dsimp only
    split
    · exact h.congr List.length_set rfl
    next t ht =>
      split
      · unfold removeBundle
        dsimp only
        split
        · exact h.call ht List.length_set (.removeMulticastFlow i) rfl
        next tx result hrun =>
          have hleaves : tx = (TxCall.removeMulticastFlow i).leaves t.tx := by
            rw [TxCall.leaves, hrun]
          have hw : Tabled { w with
              bundles := w.bundles.set i none, flowsTx := some { t with tx := tx } } :=
            h.call ht List.length_set (.removeMulticastFlow i) (by rw [hleaves])
          split <;> exact hw.congr rfl rfl
      · exact h.congr List.length_set rfl

theorem Tabled.loadFlow (h : w.Tabled) (saved : SavedMulticastTXFlow) (draw : MulticastDraw) :
    (loadFlow dev w saved draw).Tabled := by
  unfold TransmitMulticasts.loadFlow
  split
  · exact h
  · split
    · exact h.addFlowInternal _ _ _ draw
    · exact h

theorem Tabled.complete (h : w.Tabled) (k : Nat) (ok : Bool) (draw : MulticastDraw) :
    (complete dev w k ok draw).Tabled := by
  unfold TransmitMulticasts.complete
  split
  · exact h
  next task _ =>
    dsimp only
    split
    · exact h.congr rfl rfl
    next t ht =>
      split
      · split
        · unfold activate
          dsimp only
          split
          next tx hrun =>
            have hleaves : tx = (TxCall.activateMulticastFlow task.flowIndex).leaves t.tx := by
              rw [TxCall.leaves, hrun]
              rfl
            have hw : Tabled { w with flowsTx := some { t with tx := tx } } :=
              h.call ht rfl (.activateMulticastFlow task.flowIndex) (by rw [hleaves])
            split <;> exact hw.congr rfl rfl
          · exact h.congr rfl rfl
        · unfold retry
          dsimp only
          split
          · exact h.call ht rfl (.removeMulticastFlow task.flowIndex) rfl
          next tx result hrun =>
            have hleaves : tx = (TxCall.removeMulticastFlow task.flowIndex).leaves t.tx := by
              rw [TxCall.leaves, hrun]
            have hw : Tabled { w with flowsTx := some { t with tx := tx } } :=
              h.call ht rfl (.removeMulticastFlow task.flowIndex) (by rw [hleaves])
            cases hdst : tx.randomMulticastDestination draw.addresses with
            | none => exact h
            | some dst =>
                obtain ⟨dstAddr, dstPort⟩ := dst
                rw [Option.map_some, Option.getD_some]
                dsimp only
                split
                · exact hw.call rfl rfl (.addFlow _ _ _ _ _ _) rfl
                · exact hw.call rfl rfl (.addFlow _ _ _ _ _ _) rfl
      · exact h.congr rfl rfl

theorem Tabled.shutdown (h : w.Tabled) : (shutdown dev w).Tabled := by
  have hfold : ∀ (is : List Nat) (w : TransmitMulticasts), w.Tabled →
      (is.foldl (fun w i => (TransmitMulticasts.removeFlowInternal dev w i true).1) w).Tabled := by
    intro is
    induction is with
    | nil => exact fun _ h => h
    | cons i is ih => exact fun w h => ih _ (h.removeFlowInternal i true)
  exact hfold _ _ (h.congr rfl rfl)

theorem Tabled.onTables (h : w.Tabled) (e : TxTablesEvent) (sampleRate : BitVec 32) :
    (w.onTables e sampleRate).Tabled := by
  refine ⟨h.bundles, fun t' ht' => ?_⟩
  obtain ⟨t, ht, rfl⟩ := Option.map_eq_some_iff.mp ht'
  exact TxTables.together_step (h.tables t ht) sampleRate e

/-- What the tasks around the server do. -/
theorem Tabled.step (h : w.Tabled) (sampleRate : BitVec 32) (e : MulticastEvent) :
    (w.step dev sampleRate e).Tabled := by
  cases e with
  | load saved draw =>
      rw [TransmitMulticasts.step]
      split
      · exact h
      · exact h.loadFlow saved draw
  | publish =>
      rw [TransmitMulticasts.step]
      split
      · exact h.congr rfl rfl
      · exact h
  | check flowId chs =>
      rw [TransmitMulticasts.step]
      split
      · unfold checkCreate
        split
        · exact h
        · split
          · exact h
          · split
            · exact h
            · exact h.congr rfl rfl
      · exact h
  | create draw =>
      rw [TransmitMulticasts.step]
      split
      · unfold addFlow
        split
        · have hw : Tabled { w with creating := none } := h.congr rfl rfl
          exact hw.addFlowInternal _ _ _ draw
        · exact h
      · exact h.congr rfl rfl
  | delete i =>
      rw [TransmitMulticasts.step]
      split
      · exact h.removeFlowInternal i false
      · exact h
  | grace k used₁ used₂ draw => exact h.complete k _ draw
  | unicast c => exact h.onTables _ sampleRate
  | drain now => exact h.onTables _ sampleRate
  | expire slot => exact h.onTables _ sampleRate
  | shutdown =>
      rw [TransmitMulticasts.step]
      split
      · exact h.shutdown
      · exact h
  | stop =>
      rw [TransmitMulticasts.step]
      split
      · exact h
      · exact ⟨h.bundles, fun t ht => by cases ht⟩

/-! ## Panics -/

theorem randomMulticastDestination_free {tx : FlowsTransmitter} {addresses : List (Byte × Byte)}
    {dst : BitVec 32 × BitVec 16}
    (h : tx.randomMulticastDestination addresses = some dst) :
    tx.ipPortToId ⟨dst.1, dst.2⟩ = none := by
  obtain ⟨ip, hfind, rfl⟩ := Option.map_eq_some_iff.mp h
  have hfree := List.find?_some hfind
  rw [destinationExists, Bool.not_eq_true', Option.isSome_eq_false_iff] at hfree
  exact Option.isNone_iff_eq_none.mp hfree

/-- A new bundle's place is free, and if there is a transmitter it can scan. -/
def CanAddFlow (w : TransmitMulticasts) (i : Nat) (draw : MulticastDraw) : Prop :=
  w.bundles[i]? = some none ∧ ∀ t, w.flowsTx = some t →
    (t.tx.randomMulticastDestination draw.addresses).isSome → t.tx.CanScan

theorem Tabled.addFlowInternal_panicked (h : w.Tabled) (hfine : w.panicked = false) {i : Nat}
    (hi : i < MAX_FLOWS) (chs : List (Option Nat)) (draw : MulticastDraw) :
    (TransmitMulticasts.addFlowInternal dev w i chs 0 draw).panicked = false ↔
      w.CanAddFlow i draw := by
  unfold TransmitMulticasts.addFlowInternal CanAddFlow
  split
  next hfree =>
    rw [and_iff_right hfree]
    split
    next htx => exact iff_of_true hfine fun t ht => by rw [htx] at ht; cases ht
    next t htx =>
      simp only [htx, Option.some.injEq, forall_eq', if_true]
      cases hdst : t.tx.randomMulticastDestination draw.addresses with
      | none => exact iff_of_true hfine fun hsome => absurd hsome Bool.false_ne_true
      | some dst =>
          obtain ⟨dstAddr, dstPort⟩ := dst
          have hnew := randomMulticastDestination_free hdst
          have hadd := (h.tables t htx).addFlow_isSome_iff
            (show t.tx.ipPortToId (flowInfo dstAddr dstPort chs).dst = none from hnew) hi
            FPP_MAX_ADVERTISED (dev.bitsPerSample / 8) true draw.flow
          rw [Option.isSome_some, forall_prop_of_true rfl, ← hadd]
          by_cases hret : (t.tx.addFlow (flowInfo dstAddr dstPort chs) FPP_MAX_ADVERTISED
              (dev.bitsPerSample / 8) (some i) true draw.flow).isSome = true
          · simp only [addBundleFlow, hret, if_true]
            exact iff_of_true hfine trivial
          · simp only [addBundleFlow, hret]
            exact iff_of_false (fun hp => by cases hp) Bool.false_ne_true
  next hbusy => exact iff_of_false (fun hp => by cases hp) fun hf => hbusy hf.1

/-- The place is one, and what is left to do for its bundle can be done. -/
def CanRemoveFlow (dev : MulticastDevice) (w : TransmitMulticasts) (i : Nat) : Prop :=
  i < MAX_FLOWS ∧ ∀ bundle, w.bundles[i]? = some (some bundle) → ∀ t, w.flowsTx = some t →
    w.shouldWork = true →
    (t.tx.receiverGone = false ∨
      ∀ info, t.tx.flowsInfo[i]? = some (some info) → info.isMulticast = false) ∧
    canRefresh dev bundle.localChannelIndices = true

theorem Tabled.removeFlow_panicked (h : w.Tabled) (hfine : w.panicked = false) (i : Nat) :
    (w.removeFlow dev i).panicked = false ↔ CanRemoveFlow dev w i := by
  unfold TransmitMulticasts.removeFlow TransmitMulticasts.removeFlowInternal CanRemoveFlow
  split
  next hnone =>
    have hge := List.getElem?_eq_none_iff.mp hnone
    rw [h.bundles] at hge
    exact iff_of_false (fun hp => by cases hp) fun hf => Nat.not_lt.mpr hge hf.1
  next hfree =>
    have hlt := (List.getElem?_eq_some_iff.mp hfree).1
    rw [h.bundles] at hlt
    exact iff_of_true hfine ⟨hlt, fun bundle hb => by rw [hfree] at hb; cases hb⟩
  next bundle hb =>
    have hlt := (List.getElem?_eq_some_iff.mp hb).1
    rw [h.bundles] at hlt
    simp only [hb, Option.some.injEq, forall_eq', and_iff_right hlt]
    cases htx : w.flowsTx with
    | none => exact iff_of_true hfine fun t ht => by cases ht
    | some t =>
        simp only [Option.some.injEq, forall_eq']
        cases hwork : w.shouldWork with
        | false => exact iff_of_true hfine fun hf => absurd hf Bool.false_ne_true
        | true =>
            rw [if_pos rfl, forall_prop_of_true rfl, ← removeMulticastFlow_isSome]
            unfold removeBundle
            dsimp only
            cases t.tx.removeMulticastFlow i with
            | none => exact iff_of_false (fun hp => by cases hp) fun hf => by cases hf.1
            | some r =>
                rw [Option.isSome_some, and_iff_right rfl]
                dsimp only
                split
                next hrefresh => exact iff_of_true hfine hrefresh
                next hrefresh => exact iff_of_false (fun hp => by cases hp) hrefresh

theorem new_tabled (flags : Flag → Bool) : (new (.start flags)).Tabled where
  bundles := List.length_replicate
  tables t ht := by
    cases ht
    exact start_together flags

end TransmitMulticasts

end Inferno
