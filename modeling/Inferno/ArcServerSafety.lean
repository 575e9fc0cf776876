import Inferno.ChangeNotification
import Inferno.ListingsFit
import Inferno.MulticastTables

/-!
# Which datagrams the ARC server survives

For each opcode the condition under which a datagram is handled without a panic
and forwards only indices that are there (`Harmless`), and that these are all
(`handle_safe_iff`); along every run of the server with the tasks around it
(`datagrams_survived_iff`).
-/

namespace Inferno

open BinarySerde TransmitMulticasts

/-! ## Reading a request -/

/-- The items of a request are where its count says. -/
def ItemsFit (Out : Type) [BinarySerde Out] (content : List Byte) : Prop :=
  2 ≤ content.length ∧
    2 + min (content.getD 1 0).toNat (content.length / SERIALIZED_SIZE Out) *
      SERIALIZED_SIZE Out ≤ content.length

/-- The items that are read from it. -/
def requestItems (Out : Type) [BinarySerde Out] (content : List Byte) : List Out :=
  (deserializeItems Out content).getD []

theorem deserializeItems_isSome_iff {Out : Type} [BinarySerde Out] {content : List Byte} :
    (deserializeItems Out content).isSome ↔ ItemsFit Out content := by
  unfold deserializeItems ItemsFit
  dsimp only
  rw [List.length_drop]
  split
  next hshort => exact iff_of_false Bool.false_ne_true fun h => Nat.not_lt.mpr h.1 hshort
  next hlong =>
    split
    next hover => exact iff_of_false Bool.false_ne_true (by omega)
    next hfits => exact iff_of_true rfl (by omega)

theorem deserializeItems_eq {Out : Type} [BinarySerde Out] {content : List Byte}
    (h : ItemsFit Out content) :
    deserializeItems Out content = some (requestItems Out content) := by
  obtain ⟨items, hitems⟩ := Option.isSome_iff_exists.mp (deserializeItems_isSome_iff.mpr h)
  rw [requestItems, hitems]
  rfl

theorem deserializeItems_none {Out : Type} [BinarySerde Out] {content : List Byte}
    (h : ¬ ItemsFit Out content) : deserializeItems Out content = none :=
  Option.not_isSome_iff_eq_none.mp fun hsome => h (deserializeItems_isSome_iff.mp hsome)

theorem read0term_isSome_iff (content : List Byte) (offset : Nat) :
    (read0termStrFromBuffer content offset).isSome ↔ Terminated content offset := by
  rw [← not_iff_not, ← read0term_none_iff, Option.not_isSome_iff_eq_none]

/-! ## What the items of a request may do -/

/-- An index that is there. -/
def ArcCall.InRange (rxChannels : Nat) : ArcCall → Prop
  | .subscribe i _ _ => i < rxChannels
  | .unsubscribe i => i < rxChannels
  | .addFlow i _ => i < MAX_FLOWS
  | .removeFlow i => i < MAX_FLOWS
  | _ => True

namespace ArcServer

/-- What holds at any time: settings and subscriptions for every channel. -/
structure Consistent (s : ArcServer) : Prop where
  savedRx : s.selfInfo.rxChannels.length ≤ s.savedRx.length
  savedTx : s.selfInfo.txChannels.length ≤ s.savedTx.length
  subscriptions : ∀ sub, s.subscriber = some sub →
    sub.subscriptionsInfo.length = s.selfInfo.rxChannels.length
  multicasts : s.multicasts.Tabled

/-! ### Renaming -/

/-- An item that names a channel has its name end, and if the channel is there it
may be renamed. -/
def RenameOk (channels : Nat) (may : Nat → String → Prop) (content : List Byte)
    (channelId newNameOffset : BitVec 16) : Prop :=
  channelId ≠ 0 → HEADER_LENGTH < newNameOffset.toNat →
    Terminated content (newNameOffset.toNat - HEADER_LENGTH) ∧
    ∀ name, read0termStrFromBuffer content (newNameOffset.toNat - HEADER_LENGTH) =
      some (some name) → channelId.toNat - 1 < channels → may (channelId.toNat - 1) name

theorem renameItem_isSome_iff {channels : Nat} {rename : Nat → String → Option ArcServer}
    {may : Nat → String → Prop}
    (hrename : ∀ i name, i < channels → ((rename i name).isSome ↔ may i name)) (s : ArcServer)
    (content : List Byte) (channelId newNameOffset : BitVec 16) :
    (renameItem channels rename s content channelId newNameOffset).isSome ↔
      RenameOk channels may content channelId newNameOffset := by
  unfold renameItem RenameOk
  dsimp only
  by_cases hskip : channelId = 0 ∨ newNameOffset.toNat - HEADER_LENGTH = 0
  · rw [if_pos hskip]
    refine iff_of_true rfl fun hid hoffset => ?_
    rcases hskip with hzero | hzero
    · exact absurd hzero hid
    · omega
  · rw [if_neg hskip]
    obtain ⟨hid, hoffset⟩ := not_or.mp hskip
    rw [forall_prop_of_true hid, forall_prop_of_true (by omega), ← read0term_isSome_iff]
    cases read0termStrFromBuffer content (newNameOffset.toNat - HEADER_LENGTH) with
    | none => exact iff_of_false Bool.false_ne_true fun h => Bool.false_ne_true h.1
    | some r =>
        rw [Option.isSome_some, and_iff_right rfl]
        cases r with
        | none => exact iff_of_true rfl fun name h => by cases h
        | some newName =>
            simp only [Option.some.injEq, forall_eq']
            split
            next hlt => rw [Option.isSome_map, hrename _ _ hlt, forall_prop_of_true hlt]
            next hge => exact iff_of_true rfl fun hlt => absurd hlt hge

theorem renameItem_spec {channels : Nat} {rename : Nat → String → Option ArcServer}
    {P : ArcServer → Prop} {s s' : ArcServer} {content : List Byte}
    {channelId newNameOffset : BitVec 16} {r : Option Nat}
    (hrename : ∀ i name s', rename i name = some s' → P s') (hs : P s)
    (h : renameItem channels rename s content channelId newNameOffset = some (s', r)) : P s' := by
  unfold renameItem at h
  dsimp only at h
  split at h
  · cases h
    exact hs
  · split at h
    · cases h
    · cases h
      exact hs
    next newName _ =>
      split at h
      · obtain ⟨s₁, h₁, heq⟩ := Option.map_eq_some_iff.mp h
        cases heq
        exact hrename _ _ _ h₁
      · cases h
        exact hs

theorem renameChannel_lengths {saved saved' : List ChannelSettings}
    {channels channels' : List ArcChannel} {i : Nat} {name : String}
    (h : renameChannel saved channels i name = some (saved', channels')) :
    saved'.length = saved.length ∧ channels'.length = channels.length := by
  unfold renameChannel at h
  split at h
  · cases h
    exact ⟨List.length_set, List.length_modify ..⟩
  · cases h

/-- What a handled datagram leaves as it was. -/
structure Keeps (s s' : ArcServer) : Prop where
  consistent : s'.Consistent
  rxChannels : s'.selfInfo.rxChannels.length = s.selfInfo.rxChannels.length

theorem Keeps.refl {s : ArcServer} (h : s.Consistent) : Keeps s s := ⟨h, rfl⟩

/-- What is wanted of a datagram's outcome. -/
structure Safe (s : ArcServer) (o : ArcOutcome) : Prop where
  keeps : Keeps s o.server
  calls : ∀ c ∈ o.calls, c.InRange s.selfInfo.rxChannels.length

variable {s s' : ArcServer}

theorem renameRxChannel_keeps (h : s.Consistent) {i : Nat} {name : String}
    (hrun : s.renameRxChannel i name = some s') : Keeps s s' := by
  obtain ⟨⟨saved, channels⟩, h₁, hrun⟩ := Option.bind_eq_some_iff.mp hrun
  cases hrun
  obtain ⟨hsaved, hchannels⟩ := renameChannel_lengths h₁
  refine ⟨⟨?_, h.savedTx, fun sub hsub => (h.subscriptions sub hsub).trans hchannels.symm,
    h.multicasts⟩, hchannels⟩
  dsimp only
  rw [hsaved, hchannels]
  exact h.savedRx

theorem renameTxChannel_keeps (h : s.Consistent) {i : Nat} {name : String}
    (hrun : s.renameTxChannel i name = some s') : Keeps s s' := by
  obtain ⟨⟨saved, channels⟩, h₁, hrun⟩ := Option.bind_eq_some_iff.mp hrun
  cases hrun
  obtain ⟨hsaved, hchannels⟩ := renameChannel_lengths h₁
  refine ⟨⟨h.savedRx, ?_, h.subscriptions, h.multicasts⟩, rfl⟩
  dsimp only
  rw [hsaved, hchannels]
  exact h.savedTx

/-- What renaming does to a channel that is there. -/
theorem renameTxChannel_at (h : s.Consistent) {index : Nat}
    (hlt : index < s.selfInfo.txChannels.length) (name : String) :
    ∃ s₁, s.renameTxChannel index name = some s₁ ∧
      s₁.selfInfo.txChannels[index]? =
        some { s.selfInfo.txChannels[index] with friendlyName := name } ∧
      s₁.friendlyHostname = s.friendlyHostname ∧ s₁.mdnsRunning = s.mdnsRunning := by
  unfold renameTxChannel renameChannel
  rw [if_pos ⟨hlt.trans_le h.savedTx, hlt⟩]
  refine ⟨_, rfl, ?_, rfl, rfl⟩
  dsimp only
  rw [List.getElem?_modify_eq, List.getElem?_eq_getElem hlt]
  rfl

section

variable {named : String → Bool}

/-- The channel is there, and its labels can be made. -/
def Announceable (named : String → Bool) (s : ArcServer) (index : Nat) : Prop :=
  ∃ ch, s.selfInfo.txChannels[index]? = some ch ∧ s.labelsOk named ch = true

theorem removeTxChannel_isSome_iff {index : Nat} :
    (s.removeTxChannel named index).isSome ↔ s.Announceable named index := by
  unfold removeTxChannel Announceable
  cases s.selfInfo.txChannels[index]? with
  | none => exact iff_of_false Bool.false_ne_true fun ⟨ch, h, _⟩ => by cases h
  | some txch =>
      simp only [Option.bind_eq_bind, Option.bind_some, Option.some.injEq, exists_eq_left']
      split
      next h => exact iff_of_true rfl h
      next h => exact iff_of_false Bool.false_ne_true h

theorem addTxChannel_isSome_iff {index : Nat} (hlt : index < s.selfInfo.txChannels.length) :
    (s.addTxChannel named index).isSome ↔
      (s.mdnsRunning = true → s.Announceable named index) := by
  unfold addTxChannel Announceable
  rw [List.getElem?_eq_getElem hlt]
  simp only [Option.bind_eq_bind, Option.bind_some, Option.some.injEq, exists_eq_left']
  split
  next hrunning =>
    rw [forall_prop_of_true hrunning]
    split
    next h => exact iff_of_true rfl h
    next h => exact iff_of_false Bool.false_ne_true h
  next hstopped => exact iff_of_true rfl fun h => absurd h hstopped

/-- A channel to transmit is announced by its old names, and with the responder
running it can be announced by the new ones. -/
def MayRenameTx (named : String → Bool) (s : ArcServer) (index : Nat) (name : String) : Prop :=
  s.Announceable named index ∧ ∀ ch, s.selfInfo.txChannels[index]? = some ch →
    s.mdnsRunning = true → s.labelsOk named { ch with friendlyName := name } = true

theorem renameTx_isSome_iff (h : s.Consistent) {index : Nat} {name : String}
    (hlt : index < s.selfInfo.txChannels.length) :
    (s.renameTx named index name).isSome ↔ s.MayRenameTx named index name := by
  unfold renameTx MayRenameTx
  rw [← removeTxChannel_isSome_iff]
  cases s.removeTxChannel named index with
  | none => exact iff_of_false Bool.false_ne_true fun hf => Bool.false_ne_true hf.1
  | some u =>
      rw [Option.isSome_some, and_iff_right rfl]
      obtain ⟨s₁, hrename, hch, hlabels, hrunning⟩ := renameTxChannel_at h hlt name
      have hlt₁ := (List.getElem?_eq_some_iff.mp hch).1
      have hadd := @addTxChannel_isSome_iff s₁ named index hlt₁
      simp only [Announceable, hch, Option.some.injEq, exists_eq_left', labelsOk, hlabels,
        hrunning] at hadd
      simp only [Option.bind_eq_bind, Option.bind_some, hrename, List.getElem?_eq_getElem hlt,
        Option.some.injEq, forall_eq', labelsOk]
      rw [← hadd]
      cases s₁.addTxChannel named index with
      | none => exact Iff.rfl
      | some u => exact Iff.rfl

theorem renameTx_keeps (h : s.Consistent) {i : Nat} {name : String}
    (hrun : s.renameTx named i name = some s') : Keeps s s' := by
  obtain ⟨_, _, hrun⟩ := Option.bind_eq_some_iff.mp hrun
  obtain ⟨s₁, h₁, hrun⟩ := Option.bind_eq_some_iff.mp hrun
  obtain ⟨_, _, hrun⟩ := Option.bind_eq_some_iff.mp hrun
  cases hrun
  exact renameTxChannel_keeps h h₁

theorem Keeps.trans {s₁ s₂ : ArcServer} (h₁ : Keeps s s₁) (h₂ : Keeps s₁ s₂) : Keeps s s₂ :=
  ⟨h₂.consistent, h₂.rxChannels.trans h₁.rxChannels⟩

/-- An item of `rename_tx_channels` may be served. -/
def RenameTxOk (named : String → Bool) (content : List Byte) (s : ArcServer) (r : RenameTxRequest) :
    Prop :=
  RenameOk s.selfInfo.txChannels.length (s.MayRenameTx named) content r.channelId r.newNameOffset

/-- An item of `rename_rx_channels` may be served. -/
def RenameRxOk (content : List Byte) (r : RenameRxRequest) : Prop :=
  r.channelId ≠ 0 → HEADER_LENGTH < r.newNameOffset.toNat →
    Terminated content (r.newNameOffset.toNat - HEADER_LENGTH)

theorem renameTxItem_keeps {content : List Byte} {r : RenameTxRequest} {b : Option Nat}
    (h : s.Consistent) (hrun : renameTxItem named content s r = some (s', b)) : Keeps s s' :=
  renameItem_spec (fun _ _ _ => renameTx_keeps h) (.refl h) hrun

theorem renameRxItem_keeps {content : List Byte} {r : RenameRxRequest} {b : Option Nat}
    (h : s.Consistent) (hrun : renameRxItem content s r = some (s', b)) : Keeps s s' :=
  renameItem_spec (fun _ _ _ => renameRxChannel_keeps h) (.refl h) hrun

theorem renameTxItem_isSome_iff (h : s.Consistent) {content : List Byte} {r : RenameTxRequest} :
    (renameTxItem named content s r).isSome ↔ RenameTxOk named content s r :=
  renameItem_isSome_iff (fun _ _ => renameTx_isSome_iff h) s content r.channelId r.newNameOffset

theorem renameRxItem_isSome_iff (h : s.Consistent) {content : List Byte} {r : RenameRxRequest} :
    (renameRxItem content s r).isSome ↔ RenameRxOk content r := by
  have hitem := @renameItem_isSome_iff s.selfInfo.rxChannels.length s.renameRxChannel
    (fun _ _ => True) (fun i name hlt => iff_of_true ?_ trivial) s content r.channelId
    r.newNameOffset
  · refine hitem.trans (forall₂_congr fun _ _ => ?_)
    exact and_iff_left fun _ _ _ => trivial
  · unfold renameRxChannel renameChannel
    rw [if_pos ⟨hlt.trans_le h.savedRx, hlt⟩]
    rfl

/-- The notification never panics. -/
theorem makeChannelChangeNotification_isSome (channelIndices : List Nat) :
    (makeChannelChangeNotification channelIndices).isSome := by
  rw [notification_eq]
  rfl

/-! ### Whole requests -/

/-- The items are there, and each may be served. -/
def RenameTxHarmless (named : String → Bool) (s : ArcServer) (content : List Byte) : Prop :=
  ItemsFit RenameTxRequest content ∧ Serve.EachOk (renameTxItem named content)
    (RenameTxOk named content) s (requestItems RenameTxRequest content)

theorem renameTxChannels_isSome_iff (h : s.Consistent) (request : List Byte) :
    (s.renameTxChannels named request).isSome ↔
      s.RenameTxHarmless named (request.drop HEADER_LENGTH) := by
  unfold renameTxChannels RenameTxHarmless
  dsimp only
  by_cases hfit : ItemsFit RenameTxRequest (request.drop HEADER_LENGTH)
  · rw [deserializeItems_eq hfit, and_iff_right hfit, ← Serve.items_isSome_iff
      (fun _ _ _ _ hs hrun => (renameTxItem_keeps hs hrun).consistent)
      (fun _ _ hs => renameTxItem_isSome_iff hs) h, Option.bind_eq_bind, Option.bind_some]
    cases Serve.items (renameTxItem named (request.drop HEADER_LENGTH)) s
        (requestItems RenameTxRequest (request.drop HEADER_LENGTH)) with
    | none => exact Iff.rfl
    | some r =>
        refine iff_of_true ?_ rfl
        simp only [Option.bind_eq_bind, Option.bind_some]
        split <;> rfl
  · rw [deserializeItems_none hfit]
    exact iff_of_false Bool.false_ne_true fun hf => hfit hf.1

/-- The items are there, and each may be served. -/
def RenameRxHarmless (content : List Byte) : Prop :=
  ItemsFit RenameRxRequest content ∧ ∀ r ∈ requestItems RenameRxRequest content,
    RenameRxOk content r

theorem renameRxChannels_isSome_iff (h : s.Consistent) (request : List Byte) :
    (s.renameRxChannels request).isSome ↔ RenameRxHarmless (request.drop HEADER_LENGTH) := by
  have hkeep : ∀ s r s' b, Consistent s →
      renameRxItem (request.drop HEADER_LENGTH) s r = some (s', b) → Consistent s' :=
    fun _ _ _ _ hs hrun => (renameRxItem_keeps hs hrun).consistent
  unfold renameRxChannels RenameRxHarmless
  dsimp only
  by_cases hfit : ItemsFit RenameRxRequest (request.drop HEADER_LENGTH)
  · rw [deserializeItems_eq hfit, and_iff_right hfit, ← Serve.eachOk_const hkeep
      (fun _ _ hs => (renameRxItem_isSome_iff hs).mpr) h, ← Serve.items_isSome_iff hkeep
      (fun _ _ hs => renameRxItem_isSome_iff hs) h, Option.bind_eq_bind, Option.bind_some]
    cases Serve.items (renameRxItem (request.drop HEADER_LENGTH)) s
        (requestItems RenameRxRequest (request.drop HEADER_LENGTH)) with
    | none => exact Iff.rfl
    | some r =>
        obtain ⟨msg, hmsg⟩ := Option.isSome_iff_exists.mp
          (makeChannelChangeNotification_isSome (r.2.filterMap id))
        refine iff_of_true ?_ rfl
        simp only [Option.bind_eq_bind, Option.bind_some, hmsg]
        rfl
  · rw [deserializeItems_none hfit]
    exact iff_of_false Bool.false_ne_true fun hf => hfit hf.1

theorem renameTxChannels_safe (h : s.Consistent) {request : List Byte} {o : ArcOutcome}
    (hrun : s.renameTxChannels named request = some o) : s.Safe o := by
  obtain ⟨renames, _, hrun⟩ := Option.bind_eq_some_iff.mp hrun
  obtain ⟨⟨s₁, renamed⟩, hitems, hrun⟩ := Option.bind_eq_some_iff.mp hrun
  have hkeeps : Keeps s s₁ := Serve.items_keeps
    (fun _ _ _ _ hs hitem => hs.trans (renameTxItem_keeps hs.consistent hitem)) (.refl h) hitems
  dsimp only at hrun
  split at hrun <;> cases hrun <;> exact ⟨hkeeps, fun c hc => by cases hc⟩

theorem renameRxChannels_safe (h : s.Consistent) {request : List Byte} {o : ArcOutcome}
    (hrun : s.renameRxChannels request = some o) : s.Safe o := by
  obtain ⟨renames, _, hrun⟩ := Option.bind_eq_some_iff.mp hrun
  obtain ⟨⟨s₁, renamed⟩, hitems, hrun⟩ := Option.bind_eq_some_iff.mp hrun
  obtain ⟨msg, _, hrun⟩ := Option.bind_eq_some_iff.mp hrun
  cases hrun
  refine ⟨Serve.items_keeps (fun _ _ _ _ hs hitem =>
    hs.trans (renameRxItem_keeps hs.consistent hitem)) (.refl h) hitems, fun c hc => ?_⟩
  obtain ⟨content, _, rfl⟩ := Option.map_eq_some_iff.mp (Option.mem_toList.mp hc)
  exact trivial

end

/-! ### Subscriptions -/

/-- A string of a subscription ends, unless its offset is in the header. -/
def StringOk (content : List Byte) (offset : BitVec 16) : Prop :=
  HEADER_LENGTH ≤ offset.toNat → Terminated content (offset.toNat - HEADER_LENGTH)

/-- An item that subscribes a channel that is there has its strings end. -/
def SubscriptionOk (rxChannels : Nat) (content : List Byte) (req : SubscriptionRequest) : Prop :=
  req.localChannelId ≠ 0 → req.localChannelId.toNat ≤ rxChannels →
    0 < req.txChannelNameOffset.toNat → 0 < req.txHostnameOffset.toNat →
      StringOk content req.txChannelNameOffset ∧ StringOk content req.txHostnameOffset

theorem strOrNone_isSome_iff (content : List Byte) (offset : BitVec 16) :
    (strOrNone content offset).isSome ↔ StringOk content offset := by
  unfold strOrNone StringOk
  split
  next hheader => exact iff_of_true rfl fun hge => absurd hheader (Nat.not_lt.mpr hge)
  next hbehind =>
    rw [forall_prop_of_true (Nat.not_lt.mp hbehind)]
    exact read0term_isSome_iff _ _

theorem toNat_pos_of_ne_zero {x : BitVec 16} (h : x ≠ 0) : 0 < x.toNat :=
  Nat.pos_of_ne_zero fun hzero => h (BitVec.eq_of_toNat_eq hzero)

theorem subscriptionItem_isSome_iff {n : Nat} {content : List Byte} {sub : ListedSubscriber}
    (hsub : sub.subscriptionsInfo.length = n) (req : SubscriptionRequest) :
    (subscriptionItem n content sub req).isSome ↔ SubscriptionOk n content req := by
  unfold subscriptionItem SubscriptionOk
  dsimp only
  by_cases hzero : req.localChannelId = 0
  · rw [if_pos hzero]
    exact iff_of_true rfl fun hid => absurd hzero hid
  have hpos := toNat_pos_of_ne_zero hzero
  rw [if_neg hzero, forall_prop_of_true hzero]
  by_cases hrange : req.localChannelId.toNat - 1 ≥ n
  · rw [if_pos hrange]
    exact iff_of_true rfl fun hle => absurd hrange (by omega)
  rw [if_neg hrange, forall_prop_of_true (by omega)]
  by_cases hoffsets : 0 < req.txChannelNameOffset.toNat ∧ 0 < req.txHostnameOffset.toNat
  · rw [if_pos hoffsets, forall_prop_of_true hoffsets.1, forall_prop_of_true hoffsets.2,
      ← strOrNone_isSome_iff, ← strOrNone_isSome_iff]
    cases strOrNone content req.txChannelNameOffset with
    | none => exact iff_of_false Bool.false_ne_true fun hf => Bool.false_ne_true hf.1
    | some name =>
        cases strOrNone content req.txHostnameOffset with
        | none => exact iff_of_false Bool.false_ne_true fun hf => Bool.false_ne_true hf.2
        | some host =>
            refine iff_of_true ?_ ⟨rfl, rfl⟩
            cases name with
            | none => rfl
            | some name =>
                cases host with
                | none => rfl
                | some host =>
                    simp only [Option.bind_eq_bind, Option.bind_some, ListedSubscriber.subscribe,
                      if_pos (show req.localChannelId.toNat - 1 < sub.subscriptionsInfo.length by
                        omega)]
                    rfl
  · rw [if_neg hoffsets]
    exact iff_of_true rfl fun h₁ h₂ => absurd ⟨h₁, h₂⟩ hoffsets

theorem subscriptionItem_spec {n : Nat} {content : List Byte} {sub sub' : ListedSubscriber}
    {req : SubscriptionRequest} {call : Option ArcCall}
    (h : subscriptionItem n content sub req = some (sub', call)) :
    sub'.subscriptionsInfo.length = sub.subscriptionsInfo.length ∧
      ∀ c, call = some c → c.InRange n := by
  unfold subscriptionItem at h
  dsimp only at h
  split at h
  · cases h
    exact ⟨rfl, fun c hc => by cases hc⟩
  split at h
  · cases h
    exact ⟨rfl, fun c hc => by cases hc⟩
  next hrange =>
  split at h
  · obtain ⟨name, _, h⟩ := Option.bind_eq_some_iff.mp h
    obtain ⟨host, _, h⟩ := Option.bind_eq_some_iff.mp h
    split at h
    · obtain ⟨sub₁, hsub, h⟩ := Option.bind_eq_some_iff.mp h
      cases h
      unfold ListedSubscriber.subscribe at hsub
      split at hsub
      · cases hsub
        refine ⟨List.length_set, fun c hc => ?_⟩
        cases hc
        exact Nat.not_le.mp hrange
      · cases hsub
    · cases h
      exact ⟨rfl, fun c hc => by cases hc⟩
  · cases h
    refine ⟨rfl, fun c hc => ?_⟩
    cases hc
    exact Nat.not_le.mp hrange

/-- With a subscriber, the items are there, and each may be served. -/
def SubscriptionsHarmless (s : ArcServer) (content : List Byte) : Prop :=
  s.subscriber.isSome → ItemsFit SubscriptionRequest content ∧
    ∀ req ∈ requestItems SubscriptionRequest content,
      SubscriptionOk s.selfInfo.rxChannels.length content req

theorem setChannelsSubscriptions_isSome_iff (h : s.Consistent) (request : List Byte) :
    (s.setChannelsSubscriptions request).isSome ↔
      s.SubscriptionsHarmless (request.drop HEADER_LENGTH) := by
  unfold setChannelsSubscriptions SubscriptionsHarmless
  cases hsub : s.subscriber with
  | none => exact iff_of_true rfl fun hf => absurd hf Bool.false_ne_true
  | some sub =>
      have hlen := h.subscriptions sub hsub
      have hkeep : ∀ sub req sub' call,
          sub.subscriptionsInfo.length = s.selfInfo.rxChannels.length →
          subscriptionItem s.selfInfo.rxChannels.length (request.drop HEADER_LENGTH) sub req =
            some (sub', call) → sub'.subscriptionsInfo.length = s.selfInfo.rxChannels.length :=
        fun _ _ _ _ hs hrun => (subscriptionItem_spec hrun).1.trans hs
      rw [Option.isSome_some, forall_prop_of_true rfl]
      dsimp only
      by_cases hfit : ItemsFit SubscriptionRequest (request.drop HEADER_LENGTH)
      · rw [deserializeItems_eq hfit, and_iff_right hfit, ← Serve.eachOk_const hkeep
          (fun _ _ hs => (subscriptionItem_isSome_iff hs _).mpr) hlen, ← Serve.items_isSome_iff
          hkeep (fun _ _ hs => subscriptionItem_isSome_iff hs _) hlen, Option.bind_eq_bind,
          Option.bind_some]
        cases Serve.items (subscriptionItem s.selfInfo.rxChannels.length
            (request.drop HEADER_LENGTH)) sub
            (requestItems SubscriptionRequest (request.drop HEADER_LENGTH)) with
        | none => exact Iff.rfl
        | some r => exact Iff.rfl
      · rw [deserializeItems_none hfit]
        exact iff_of_false Bool.false_ne_true fun hf => hfit hf.1

theorem setChannelsSubscriptions_safe (h : s.Consistent) {request : List Byte} {o : ArcOutcome}
    (hrun : s.setChannelsSubscriptions request = some o) : s.Safe o := by
  unfold setChannelsSubscriptions at hrun
  cases hsub : s.subscriber with
  | none =>
      rw [hsub] at hrun
      cases hrun
      exact ⟨.refl h, fun c hc => by cases hc⟩
  | some sub =>
      rw [hsub] at hrun
      obtain ⟨reqs, _, hrun⟩ := Option.bind_eq_some_iff.mp hrun
      obtain ⟨⟨sub', calls⟩, hitems, hrun⟩ := Option.bind_eq_some_iff.mp hrun
      cases hrun
      have hkeep : ∀ v req v' call,
          v.subscriptionsInfo.length = s.selfInfo.rxChannels.length →
          subscriptionItem s.selfInfo.rxChannels.length (request.drop HEADER_LENGTH) v req =
            some (v', call) → v'.subscriptionsInfo.length = s.selfInfo.rxChannels.length :=
        fun _ _ _ _ hs hrun => (subscriptionItem_spec hrun).1.trans hs
      have hlen := Serve.items_keeps hkeep (h.subscriptions sub hsub) hitems
      refine ⟨⟨⟨h.savedRx, h.savedTx, fun v hv => ?_, h.multicasts⟩, rfl⟩, fun c hc => ?_⟩
      · cases hv
        exact hlen
      · obtain ⟨call, hcall, hsome⟩ := List.mem_filterMap.mp hc
        exact Serve.items_yields hkeep (fun _ _ _ _ _ hrun => (subscriptionItem_spec hrun).2)
          (h.subscriptions sub hsub) hitems call hcall c hsome

/-- With a subscriber, the request names a channel that is there. -/
def RemovalHarmless (s : ArcServer) (content : List Byte) : Prop :=
  s.subscriber.isSome → 6 ≤ content.length ∧ u16At content 4 ≠ 0 ∧
    (u16At content 4).toNat ≤ s.selfInfo.rxChannels.length

theorem removeSubscription_safe_iff (h : s.Consistent) (request : List Byte) :
    (∃ o, s.removeSubscription request = some o ∧ s.Safe o) ↔
      s.RemovalHarmless (request.drop HEADER_LENGTH) := by
  unfold removeSubscription RemovalHarmless
  cases s.subscriber with
  | none =>
      exact iff_of_true ⟨_, rfl, .refl h, fun c hc => by cases hc⟩ fun hf =>
        absurd hf Bool.false_ne_true
  | some sub =>
      rw [Option.isSome_some, forall_prop_of_true rfl]
      dsimp only
      by_cases hshort : (request.drop HEADER_LENGTH).length < 6
      · rw [if_pos hshort]
        exact iff_of_false (fun ⟨o, ho, _⟩ => by cases ho) fun hf => Nat.not_lt.mpr hf.1 hshort
      rw [if_neg hshort, and_iff_right (Nat.not_lt.mp hshort)]
      by_cases hzero : u16At (request.drop HEADER_LENGTH) 4 = 0
      · rw [if_pos hzero]
        exact iff_of_false (fun ⟨o, ho, _⟩ => by cases ho) fun hf => hf.1 hzero
      have hpos := toNat_pos_of_ne_zero hzero
      rw [if_neg hzero, and_iff_right hzero]
      constructor
      · rintro ⟨o, ho, hsafe⟩
        cases ho
        have hrange : _ - 1 < _ := hsafe.calls _ List.mem_cons_self
        omega
      · intro hle
        refine ⟨_, rfl, .refl h, fun c hc => ?_⟩
        rw [List.mem_singleton.mp hc]
        show _ - 1 < _
        omega

theorem removeSubscription_server {request : List Byte} {o : ArcOutcome}
    (hrun : s.removeSubscription request = some o) : o.server = s := by
  unfold removeSubscription at hrun
  split at hrun
  · cases hrun
    rfl
  · dsimp only at hrun
    split at hrun
    · cases hrun
    · split at hrun
      · cases hrun
      · cases hrun
        rfl

/-! ### Multicast flows -/

/-- Where a descriptor begins in the content. -/
def descrStart (descrOffset : BitVec 16) : Nat := descrOffset.toNat - HEADER_LENGTH

/-- What is behind the header of a descriptor. -/
def afterHeader (content : List Byte) (descrOffset : BitVec 16) : List Byte :=
  content.drop (descrStart descrOffset + SERIALIZED_SIZE MulticastFlowHeader)

/-- A descriptor asks for a flow at a place that the transmitter has free. -/
structure Asks (w : TransmitMulticasts) (content : List Byte) (descrOffset : BitVec 16)
    (descr : MulticastFlowHeader) (t : TxTables) : Prop where
  fits : descrStart descrOffset + SERIALIZED_SIZE MulticastFlowHeader ≤ content.length
  header : binaryDeserialize ((content.drop (descrStart descrOffset)).take
    (SERIALIZED_SIZE MulticastFlowHeader)) = some descr
  flowType : descr.flowType = 2
  flowId : descr.flowId ≠ 0 ∧ descr.flowId.toNat ≤ MAX_FLOWS
  transmitter : w.flowsTx = some t
  free : t.tx.flowsInfo[descr.flowId.toNat - 1]? = some none
  channels : descr.channelsCount.toNat + 2 ≤ (afterHeader content descrOffset).length

/-- An item of `create_multicast_tx_flow` may be served: the offset is behind the
header, and the descriptor there asks for nothing, or has all its channels, and
the bundles have the place free, too. -/
def CreateOk (content : List Byte) (w : TransmitMulticasts) (item : BitVec 16 × MulticastDraw) :
    Prop :=
  HEADER_LENGTH ≤ item.1.toNat ∧ ∀ descr t, Asks w content item.1 descr t →
    descr.channelsCount.toNat * 2 ≤ (afterHeader content item.1).length ∧
    (w.published = true → w.CanAddFlow (descr.flowId.toNat - 1) item.2)

theorem checkDescriptor_asks {w : TransmitMulticasts} {content : List Byte}
    {descrOffset : BitVec 16} {descr : MulticastFlowHeader} {t : TxTables}
    (hoffset : HEADER_LENGTH ≤ descrOffset.toNat) (h : Asks w content descrOffset descr t) :
    checkDescriptor w content descrOffset =
      if (afterHeader content descrOffset).length < descr.channelsCount.toNat * 2 then none
      else some (some ⟨descr.flowId.toNat - 1,
        channelIds (afterHeader content descrOffset) 0 descr.channelsCount.toNat⟩) := by
  have hheader := h.header
  have hid := not_or.mpr ⟨h.flowId.1, Nat.not_lt.mpr h.flowId.2⟩
  have hfits := Nat.not_lt.mpr h.fits
  have hchannels := Nat.not_lt.mpr h.channels
  unfold afterHeader at hchannels ⊢
  unfold descrStart at hheader hfits hchannels ⊢
  unfold checkDescriptor
  simp only [hheader, h.transmitter, h.free, if_neg (Nat.not_lt.mpr hoffset),
    if_neg (not_not_intro h.flowType), if_neg hid, gt_iff_lt, if_neg hfits, if_neg hchannels]

theorem checkDescriptor_skips {w : TransmitMulticasts} (hw : w.Tabled) {content : List Byte}
    {descrOffset : BitVec 16} (hoffset : HEADER_LENGTH ≤ descrOffset.toNat)
    (h : ∀ descr t, ¬ Asks w content descrOffset descr t) :
    checkDescriptor w content descrOffset = some none := by
  unfold checkDescriptor
  dsimp only
  rw [if_neg (Nat.not_lt.mpr hoffset)]
  split
  · rfl
  next hfits =>
  split
  · rfl
  next descr hheader =>
  split
  · rfl
  next htype =>
  split
  · rfl
  next hid =>
  split
  · rfl
  next t ht =>
  obtain ⟨hzero, hmax⟩ := not_or.mp hid
  split
  next hnone =>
    have hge := List.getElem?_eq_none_iff.mp hnone
    have hpos := toNat_pos_of_ne_zero hzero
    rw [(hw.tables t ht).tables.length] at hge
    omega
  · rfl
  next hfree =>
  split
  · rfl
  next hchannels =>
    exact absurd ⟨Nat.not_lt.mp hfits, hheader, not_not.mp htype, ⟨hzero, Nat.not_lt.mp hmax⟩, ht,
      hfree, Nat.not_lt.mp hchannels⟩ (h descr t)

/-- An operation that is awaited returns exactly if it does not panic. -/
theorem awaited_isSome_iff {w : TransmitMulticasts} {f : TransmitMulticasts → TransmitMulticasts} :
    (awaited w f).isSome ↔ (f { w with panicked := false }).panicked = false := by
  unfold awaited
  dsimp only
  cases (f { w with panicked := false }).panicked with
  | false => exact iff_of_true rfl rfl
  | true => exact iff_of_false Bool.false_ne_true Bool.true_eq_false.mp

theorem awaited_tabled {w w' : TransmitMulticasts} {f : TransmitMulticasts → TransmitMulticasts}
    (hf : ∀ w, w.Tabled → (f w).Tabled) (hw : w.Tabled) (h : awaited w f = some w') : w'.Tabled := by
  unfold awaited at h
  dsimp only at h
  split at h
  · cases h
  · cases h
    have hfine : { w with panicked := false }.Tabled := hw.congr rfl rfl
    exact ⟨(hf _ hfine).bundles, (hf _ hfine).tables⟩

theorem awaited_addFlow_isSome_iff {dev : MulticastDevice} {w : TransmitMulticasts}
    (hw : w.Tabled) {i : Nat} (hi : i < MAX_FLOWS) (chs : List (Option Nat))
    (draw : MulticastDraw) :
    (awaited w fun w => w.addFlowInternal dev i chs 0 draw).isSome ↔ w.CanAddFlow i draw := by
  have hfine : { w with panicked := false }.Tabled := hw.congr rfl rfl
  exact awaited_isSome_iff.trans (hfine.addFlowInternal_panicked rfl hi chs draw)

theorem awaited_removeFlow_isSome_iff {dev : MulticastDevice} {w : TransmitMulticasts}
    (hw : w.Tabled) (i : Nat) :
    (awaited w fun w => w.removeFlow dev i).isSome ↔ CanRemoveFlow dev w i := by
  have hfine : { w with panicked := false }.Tabled := hw.congr rfl rfl
  exact awaited_isSome_iff.trans (hfine.removeFlow_panicked rfl i)

theorem createItem_isSome_iff {dev : MulticastDevice} {w : TransmitMulticasts} (hw : w.Tabled)
    {content : List Byte} (item : BitVec 16 × MulticastDraw) :
    (createItem dev content w item).isSome ↔ CreateOk content w item := by
  unfold createItem CreateOk
  by_cases hoffset : HEADER_LENGTH ≤ item.1.toNat
  · rw [and_iff_right hoffset]
    by_cases hasks : ∃ descr t, Asks w content item.1 descr t
    · obtain ⟨descr, t, hasks⟩ := hasks
      have hall : (∀ descr' t', Asks w content item.1 descr' t' →
          descr'.channelsCount.toNat * 2 ≤ (afterHeader content item.1).length ∧
          (w.published = true → w.CanAddFlow (descr'.flowId.toNat - 1) item.2)) ↔
          (descr.channelsCount.toNat * 2 ≤ (afterHeader content item.1).length ∧
            (w.published = true → w.CanAddFlow (descr.flowId.toNat - 1) item.2)) := by
        refine ⟨fun hf => hf descr t hasks, fun hf descr' t' hasks' => ?_⟩
        have heq := hasks.header.symm.trans hasks'.header
        cases heq
        exact hf
      have hpos := toNat_pos_of_ne_zero hasks.flowId.1
      have hmax := hasks.flowId.2
      rw [hall, checkDescriptor_asks hoffset hasks]
      split
      next hshort =>
        exact iff_of_false Bool.false_ne_true fun hf => Nat.not_lt.mpr hf.1 hshort
      next hlong =>
        rw [and_iff_right (Nat.not_lt.mp hlong)]
        simp only [Option.bind_eq_bind, Option.bind_some]
        split
        next hpublished =>
          rw [forall_prop_of_true hpublished,
            ← @awaited_addFlow_isSome_iff dev _ hw (descr.flowId.toNat - 1) (by omega) (channelIds
              (afterHeader content item.1) 0 descr.channelsCount.toNat)]
          cases awaited w fun w => w.addFlowInternal dev (descr.flowId.toNat - 1)
              (channelIds (afterHeader content item.1) 0 descr.channelsCount.toNat) 0 item.2 with
          | none => exact Iff.rfl
          | some w' => exact Iff.rfl
        next hhidden => exact iff_of_true rfl fun hf => absurd hf hhidden
    · have hnone := fun descr t h => hasks ⟨descr, t, h⟩
      rw [checkDescriptor_skips hw hoffset hnone]
      exact iff_of_true rfl fun descr t h => absurd h (hnone descr t)
  · refine iff_of_false ?_ fun hf => hoffset hf.1
    rw [checkDescriptor, if_pos (Nat.not_le.mp hoffset)]
    exact Bool.false_ne_true

theorem checkDescriptor_index {w : TransmitMulticasts} {content : List Byte}
    {descrOffset : BitVec 16} {r : MulticastRequest}
    (h : checkDescriptor w content descrOffset = some (some r)) : r.flowIndex < MAX_FLOWS := by
  unfold checkDescriptor at h
  dsimp only at h
  split at h
  · cases h
  split at h
  · cases h
  split at h
  · cases h
  next descr _ =>
  split at h
  · cases h
  split at h
  · cases h
  next hid =>
  obtain ⟨hzero, hmax⟩ := not_or.mp hid
  have hpos := toNat_pos_of_ne_zero hzero
  split at h
  · cases h
  split at h
  · cases h
  · cases h
  split at h
  · cases h
  split at h
  · cases h
  · cases h
    show descr.flowId.toNat - 1 < MAX_FLOWS
    omega

theorem createItem_spec {dev : MulticastDevice} {content : List Byte} {w w' : TransmitMulticasts}
    (hw : w.Tabled) {item : BitVec 16 × MulticastDraw} {b : Option MulticastRequest}
    (hrun : createItem dev content w item = some (w', b)) :
    w'.Tabled ∧ ∀ r, b = some r → r.flowIndex < MAX_FLOWS := by
  obtain ⟨checked, hcheck, hrun⟩ := Option.bind_eq_some_iff.mp hrun
  cases checked with
  | none =>
      cases hrun
      exact ⟨hw, fun r hr => by cases hr⟩
  | some req =>
      dsimp only at hrun
      split at hrun
      · obtain ⟨w₁, hadd, hrun⟩ := Option.bind_eq_some_iff.mp hrun
        cases hrun
        refine ⟨awaited_tabled (fun _ h => h.addFlowInternal _ _ _ _) hw hadd, fun r hr => ?_⟩
        cases hr
        exact checkDescriptor_index hcheck
      · cases hrun
        exact ⟨hw, fun r hr => by cases hr⟩

/-- The offsets are there, and the descriptors may be served one after the other. -/
def CreateHarmless (s : ArcServer) (content : List Byte) (draw : Nat → MulticastDraw) : Prop :=
  ItemsFit (BitVec 16) content ∧ Serve.EachOk (createItem s.multicastDevice content)
    (CreateOk content) s.multicasts
    ((requestItems (BitVec 16) content).zipIdx.map fun (offset, k) => (offset, draw k))

theorem createMulticastTxFlow_isSome_iff (h : s.Consistent) (request : List Byte)
    (draw : Nat → MulticastDraw) :
    (s.createMulticastTxFlow request draw).isSome ↔
      s.CreateHarmless (request.drop HEADER_LENGTH) draw := by
  unfold createMulticastTxFlow CreateHarmless
  dsimp only
  by_cases hfit : ItemsFit (BitVec 16) (request.drop HEADER_LENGTH)
  · rw [deserializeItems_eq hfit, and_iff_right hfit, ← Serve.items_isSome_iff
      (fun _ _ _ _ hw hrun => (createItem_spec hw hrun).1)
      (fun _ item hw => createItem_isSome_iff hw item) h.multicasts, Option.bind_eq_bind,
      Option.bind_some]
    cases Serve.items (createItem s.multicastDevice (request.drop HEADER_LENGTH)) s.multicasts
        ((requestItems (BitVec 16) (request.drop HEADER_LENGTH)).zipIdx.map
          fun (offset, k) => (offset, draw k)) with
    | none => exact Iff.rfl
    | some r => exact Iff.rfl
  · rw [deserializeItems_none hfit]
    exact iff_of_false Bool.false_ne_true fun hf => hfit hf.1

theorem createMulticastTxFlow_safe (h : s.Consistent) {request : List Byte}
    {draw : Nat → MulticastDraw} {o : ArcOutcome}
    (hrun : s.createMulticastTxFlow request draw = some o) : s.Safe o := by
  obtain ⟨offsets, _, hrun⟩ := Option.bind_eq_some_iff.mp hrun
  obtain ⟨⟨w, created⟩, hitems, hrun⟩ := Option.bind_eq_some_iff.mp hrun
  cases hrun
  have hkeep : ∀ (w : TransmitMulticasts) item w' b, w.Tabled →
      createItem s.multicastDevice (request.drop HEADER_LENGTH) w item = some (w', b) →
      w'.Tabled := fun _ _ _ _ hw hitem => (createItem_spec hw hitem).1
  refine ⟨⟨⟨h.savedRx, h.savedTx, h.subscriptions,
    Serve.items_keeps hkeep h.multicasts hitems⟩, rfl⟩, fun c hc => ?_⟩
  obtain ⟨r, hr, rfl⟩ := List.mem_map.mp hc
  obtain ⟨b, hb, hsome⟩ := List.mem_filterMap.mp hr
  exact Serve.items_yields hkeep (fun _ _ _ _ hw hitem => (createItem_spec hw hitem).2)
    h.multicasts hitems b hb r hsome

section

variable {named : String → Bool}

/-- A bundle may be deleted: it can be removed, and the channels that it leaves
can be announced anew. -/
def DeleteOk (named : String → Bool) (s : ArcServer) (w : TransmitMulticasts) (flowIndex : Nat) :
    Prop :=
  w.published = true → CanRemoveFlow s.multicastDevice w flowIndex ∧
    ∀ index, some index ∈ refreshed w flowIndex → s.Announceable named index

theorem addTxChannel_of_announceable {index : Nat} (h : s.Announceable named index) :
    (s.addTxChannel named index).isSome := by
  have hlt : index < s.selfInfo.txChannels.length := by
    obtain ⟨ch, hch, _⟩ := h
    exact (List.getElem?_eq_some_iff.mp hch).1
  exact (addTxChannel_isSome_iff hlt).mpr fun _ => h

theorem deleteItem_isSome_iff {w : TransmitMulticasts} (hw : w.Tabled) (flowIndex : Nat) :
    (s.deleteItem named w flowIndex).isSome ↔ s.DeleteOk named w flowIndex := by
  unfold deleteItem DeleteOk
  split
  next hpublished =>
    rw [forall_prop_of_true hpublished, Option.isSome_map, ← awaited_removeFlow_isSome_iff hw]
    unfold removeFlow
    dsimp only
    cases awaited w fun w => w.removeFlow s.multicastDevice flowIndex with
    | none => exact iff_of_false Bool.false_ne_true fun hf => Bool.false_ne_true hf.1
    | some w' =>
        rw [Option.isSome_some, and_iff_right rfl]
        have hall : (((refreshed w flowIndex).filterMap id).all fun index =>
            (s.removeTxChannel named index).isSome && (s.addTxChannel named index).isSome) = true ↔
            ∀ index, some index ∈ refreshed w flowIndex → s.Announceable named index := by
          simp only [List.all_eq_true, List.mem_filterMap, id, exists_eq_right, Bool.and_eq_true,
            removeTxChannel_isSome_iff]
          exact forall₂_congr fun _ _ => and_iff_left_of_imp addTxChannel_of_announceable
        rw [← hall]
        simp only [Option.bind_eq_bind, Option.bind_some]
        split
        next h => exact iff_of_true rfl h
        next h => exact iff_of_false Bool.false_ne_true h
  next hhidden => exact iff_of_true rfl fun hf => absurd hf hhidden

theorem deleteItem_spec {w w' : TransmitMulticasts} (hw : w.Tabled) {flowIndex : Nat}
    {b : Option (Nat × Bool)} (hrun : s.deleteItem named w flowIndex = some (w', b)) :
    w'.Tabled ∧ ∀ d, b = some d → d.1 < MAX_FLOWS := by
  unfold deleteItem at hrun
  split at hrun
  · obtain ⟨⟨w₁, deleted⟩, hremove, heq⟩ := Option.map_eq_some_iff.mp hrun
    cases heq
    obtain ⟨w₂, hawaited, hremove⟩ := Option.bind_eq_some_iff.mp hremove
    have hcan := (awaited_removeFlow_isSome_iff hw flowIndex).mp
      (Option.isSome_iff_exists.mpr ⟨w₂, hawaited⟩)
    dsimp only at hremove
    split at hremove
    · cases hremove
      refine ⟨awaited_tabled (fun _ h => h.removeFlowInternal _ _) hw hawaited, fun d hd => ?_⟩
      cases hd
      exact hcan.1
    · cases hremove
  · cases hrun
    exact ⟨hw, fun d hd => by cases hd⟩

/-- The count is there, and the bundles may be deleted one after the other. -/
def DeleteHarmless (named : String → Bool) (s : ArcServer) (content : List Byte) : Prop :=
  4 ≤ content.length ∧
    Serve.EachOk (s.deleteItem named) (s.DeleteOk named) s.multicasts (deletedIndices content)

theorem deleteMulticastTxFlow_isSome_iff (h : s.Consistent) (request : List Byte) :
    (s.deleteMulticastTxFlow named request).isSome ↔
      s.DeleteHarmless named (request.drop HEADER_LENGTH) := by
  unfold deleteMulticastTxFlow DeleteHarmless
  dsimp only
  by_cases hshort : (request.drop HEADER_LENGTH).length < 4
  · rw [if_pos hshort]
    exact iff_of_false Bool.false_ne_true fun hf => Nat.not_lt.mpr hf.1 hshort
  · rw [if_neg hshort, and_iff_right (Nat.not_lt.mp hshort), ← Serve.items_isSome_iff
      (fun _ _ _ _ hw hrun => (deleteItem_spec hw hrun).1)
      (fun _ i hw => deleteItem_isSome_iff hw i) h.multicasts]
    cases Serve.items (s.deleteItem named) s.multicasts
        (deletedIndices (request.drop HEADER_LENGTH)) with
    | none => exact Iff.rfl
    | some r => exact Iff.rfl

theorem deleteMulticastTxFlow_safe (h : s.Consistent) {request : List Byte} {o : ArcOutcome}
    (hrun : s.deleteMulticastTxFlow named request = some o) : s.Safe o := by
  unfold deleteMulticastTxFlow at hrun
  dsimp only at hrun
  split at hrun
  · cases hrun
  obtain ⟨⟨w, deleted⟩, hitems, hrun⟩ := Option.bind_eq_some_iff.mp hrun
  cases hrun
  have hkeep : ∀ (w : TransmitMulticasts) i w' b, w.Tabled →
      s.deleteItem named w i = some (w', b) → w'.Tabled :=
    fun _ _ _ _ hw hitem => (deleteItem_spec hw hitem).1
  refine ⟨⟨⟨h.savedRx, h.savedTx, h.subscriptions,
    Serve.items_keeps hkeep h.multicasts hitems⟩, rfl⟩, fun c hc => ?_⟩
  obtain ⟨d, hd, rfl⟩ := List.mem_map.mp hc
  obtain ⟨b, hb, hsome⟩ := List.mem_filterMap.mp hd
  exact Serve.items_yields hkeep (fun _ _ _ _ hw hitem => (deleteItem_spec hw hitem).2)
    h.multicasts hitems b hb d hsome

end

/-! ### What the server tells of itself -/

theorem channelsAndFlowsCount_isSome_iff : s.channelsAndFlowsCount.isSome ↔
    s.selfInfo.txChannels.length + s.selfInfo.rxChannels.length < 2 ^ 16 := by
  unfold channelsAndFlowsCount
  by_cases hsum : s.selfInfo.txChannels.length + s.selfInfo.rxChannels.length < 2 ^ 16
  · rw [tryIntoU16_of_lt (by omega), tryIntoU16_of_lt (by omega), tryIntoU16_of_lt hsum]
    exact iff_of_true rfl hsum
  · have htotal : tryIntoU16 (s.selfInfo.txChannels.length + s.selfInfo.rxChannels.length) = none :=
      if_neg hsum
    rw [htotal]
    refine iff_of_false ?_ hsum
    cases tryIntoU16 s.selfInfo.txChannels.length with
    | none => exact Bool.false_ne_true
    | some tx =>
        cases tryIntoU16 s.selfInfo.rxChannels.length with
        | none => exact Bool.false_ne_true
        | some rx => exact Bool.false_ne_true

/-- Where the last string of the answer to `get_device_names` begins. -/
def deviceNamesEnd (s : ArcServer) : Nat :=
  deviceNamesHeader + ((utf8 s.friendlyHostname).length + 1) +
    ((utf8 s.factoryHostname).length + 1) + ((utf8 s.boardName).length + 1) + HEADER_LENGTH

theorem isSome_bind_of {α β : Type} {x : Option α} {a : α} {f : α → Option β} (hx : x = some a)
    (hf : (f a).isSome) : (x.bind f).isSome := by
  rw [hx]
  exact hf

theorem getDeviceNames_isSome_iff : s.getDeviceNames.isSome ↔ s.deviceNamesEnd < 2 ^ 16 := by
  constructor
  · intro hsome
    -- the first offset is a constant
    obtain ⟨names, hrun⟩ := Option.isSome_iff_exists.mp hsome
    obtain ⟨_, _, hrun⟩ := Option.bind_eq_some_iff.mp hrun
    obtain ⟨_, _, hrun⟩ := Option.bind_eq_some_iff.mp hrun
    obtain ⟨revisionStringOffset, hlast, _⟩ := Option.bind_eq_some_iff.mp hrun
    have hend : s.deviceNamesEnd = revisionStringOffset.toNat := (tryIntoU16_eq_some hlast).symm
    rw [hend]
    exact revisionStringOffset.isLt
  · intro hend
    have hsome : ∀ n, n ≤ s.deviceNamesEnd → ∃ x, tryIntoU16 n = some x :=
      fun n hn => ⟨_, tryIntoU16_of_lt (hn.trans_lt hend)⟩
    unfold deviceNamesEnd at hsome
    obtain ⟨x₂, h₂⟩ := hsome (deviceNamesHeader + ((utf8 s.friendlyHostname).length + 1) +
      HEADER_LENGTH) (by omega)
    obtain ⟨x₃, h₃⟩ := hsome (deviceNamesHeader + ((utf8 s.friendlyHostname).length + 1) +
      ((utf8 s.factoryHostname).length + 1) + HEADER_LENGTH) (by omega)
    obtain ⟨x₄, h₄⟩ := hsome _ le_rfl
    refine isSome_bind_of h₂ (isSome_bind_of h₃ (isSome_bind_of h₄ ?_))
    exact Option.isSome_some

/-! ### Datagrams -/

theorem answer_safe (h : s.Consistent) (request : List Byte) (code : BitVec 16)
    (content : List Byte) : s.Safe (s.answer request code content) :=
  ⟨.refl h, fun c hc => by cases hc⟩

theorem list_safe (h : s.Consistent) {request : List Byte}
    {listing : List Byte → Option (BitVec 16 × List Byte)} {o : ArcOutcome}
    (hrun : s.list request listing = some o) : s.Safe o := by
  obtain ⟨⟨code, response⟩, _, hrun⟩ := Option.bind_eq_some_iff.mp hrun
  cases hrun
  exact answer_safe h request code response

theorem list_isSome_iff {request : List Byte}
    {listing : List Byte → Option (BitVec 16 × List Byte)} :
    (s.list request listing).isSome ↔ (listing (request.drop HEADER_LENGTH)).isSome := by
  unfold list
  cases listing (request.drop HEADER_LENGTH) with
  | none => exact Iff.rfl
  | some r => exact Iff.rfl

/-- What is asked of a datagram with an opcode. -/
def OpcodeHarmless (named : String → Bool) (s : ArcServer) (content : List Byte)
    (draw : Nat → MulticastDraw) : ArcOpcode → Prop
  | .channelsAndFlowsCount =>
      s.selfInfo.txChannels.length + s.selfInfo.rxChannels.length < 2 ^ 16
  | .getDeviceNames => s.deviceNamesEnd < 2 ^ 16
  | .getReceiveChannels => ∀ subs, s.subscriber.map ListedSubscriber.subscriptionsInfo = some subs →
      ReceiveChannelsFit s.selfInfo subs content
  | .getTransmitChannels => TransmitChannelsFit s.selfInfo content
  | .getTransmitChannelsFriendlyNames => FriendlyNamesFit s.selfInfo content
  | .renameTxChannels => s.RenameTxHarmless named content
  | .renameRxChannels => RenameRxHarmless content
  | .queryTxFlows => TxFlowsFit s.selfInfo (s.txFlowsInfo.getD []) content
  | .createMulticastTxFlow => s.CreateHarmless content draw
  | .deleteMulticastTxFlow => s.DeleteHarmless named content
  | .queryRxFlows => ∀ flows, s.subscriber.map ListedSubscriber.flowsInfo = some flows →
      RxFlowsFit s.selfInfo flows content
  | .setChannelsSubscriptions => s.SubscriptionsHarmless content
  | .code3014 => s.RemovalHarmless content
  | .getDeviceName | .code2320 | .code1100 | .code1102 | .code3300 | .reboot | .clearConfig
  | .unknown => True

/-- A datagram is answered, and what it says fits the state that it finds. -/
def Harmless (named : String → Bool) (s : ArcServer) (request : List Byte)
    (draw : Nat → MulticastDraw) : Prop :=
  u16At request 8 = 0 → s.OpcodeHarmless named (request.drop HEADER_LENGTH) draw
    (ArcOpcode.ofCode (u16At request 6))

theorem safe_iff {x : Option ArcOutcome} {P : Prop} (hsome : x.isSome ↔ P)
    (hsafe : ∀ o, x = some o → s.Safe o) : (∃ o, x = some o ∧ s.Safe o) ↔ P := by
  rw [← hsome]
  constructor
  · rintro ⟨o, ho, _⟩
    exact Option.isSome_iff_exists.mpr ⟨o, ho⟩
  · intro h
    obtain ⟨o, ho⟩ := Option.isSome_iff_exists.mp h
    exact ⟨o, ho, hsafe o ho⟩

theorem answers_safe_iff (h : s.Consistent) {request : List Byte} {code : BitVec 16}
    {content : Option (List Byte)} {P : Prop} (hsome : content.isSome ↔ P) :
    (∃ o, content.map (s.answer request code) = some o ∧ s.Safe o) ↔ P := by
  refine safe_iff (by rw [Option.isSome_map, hsome]) fun o ho => ?_
  obtain ⟨c, _, rfl⟩ := Option.map_eq_some_iff.mp ho
  exact answer_safe h request code c

theorem always_safe {o : ArcOutcome} (h : s.Safe o) : (∃ o', some o = some o' ∧ s.Safe o') ↔ True :=
  iff_of_true ⟨o, rfl, h⟩ trivial

theorem lists_safe_iff (h : s.Consistent) {request : List Byte}
    {listing : List Byte → Option (BitVec 16 × List Byte)} {P : Prop}
    (hsome : (listing (request.drop HEADER_LENGTH)).isSome ↔ P) :
    (∃ o, s.list request listing = some o ∧ s.Safe o) ↔ P :=
  safe_iff (list_isSome_iff.trans hsome) fun _ => list_safe h

variable {named : String → Bool}

/-- A datagram is handled, and forwards only indices that are there, exactly if
it is harmless. -/
theorem handle_safe_iff (h : s.Consistent) (request : List Byte) (draw : Nat → MulticastDraw) :
    (∃ o, s.handle named request draw = some o ∧ s.Safe o) ↔ s.Harmless named request draw := by
  unfold handle Harmless
  by_cases hrequest : u16At request 8 = 0
  · rw [if_neg (not_not_intro hrequest), forall_prop_of_true hrequest]
    cases ArcOpcode.ofCode (u16At request 6) with
    | channelsAndFlowsCount => exact answers_safe_iff h channelsAndFlowsCount_isSome_iff
    | getDeviceName => exact always_safe (answer_safe h _ _ _)
    | getDeviceNames => exact answers_safe_iff h getDeviceNames_isSome_iff
    | getReceiveChannels => exact lists_safe_iff h (getReceiveChannels_isSome_iff _ _ _)
    | getTransmitChannels => exact lists_safe_iff h (getTransmitChannels_isSome_iff _ _)
    | getTransmitChannelsFriendlyNames =>
        exact lists_safe_iff h (getTransmitChannelsFriendlyNames_isSome_iff _ _)
    | renameTxChannels =>
        exact safe_iff (renameTxChannels_isSome_iff h request) fun _ => renameTxChannels_safe h
    | renameRxChannels =>
        exact safe_iff (renameRxChannels_isSome_iff h request) fun _ => renameRxChannels_safe h
    | queryTxFlows => exact lists_safe_iff h (queryTxFlows_isSome_iff _ _ _)
    | createMulticastTxFlow =>
        exact safe_iff (createMulticastTxFlow_isSome_iff h request draw) fun _ => createMulticastTxFlow_safe h
    | deleteMulticastTxFlow =>
        exact safe_iff (deleteMulticastTxFlow_isSome_iff h request) fun _ => deleteMulticastTxFlow_safe h
    | code2320 => exact always_safe (answer_safe h _ _ _)
    | queryRxFlows => exact lists_safe_iff h (queryRxFlows_isSome_iff _ _ _)
    | code1100 => exact always_safe (answer_safe h _ _ _)
    | code1102 => exact always_safe (answer_safe h _ _ _)
    | code3300 => exact always_safe (answer_safe h _ _ _)
    | setChannelsSubscriptions =>
        exact safe_iff (setChannelsSubscriptions_isSome_iff h request) fun _ => setChannelsSubscriptions_safe h
    | code3014 => exact removeSubscription_safe_iff h request
    | reboot => exact always_safe ⟨.refl h, fun c hc => by rw [List.mem_singleton.mp hc]; trivial⟩
    | clearConfig => exact always_safe (answer_safe h _ _ _)
    | unknown => exact always_safe (answer_safe h _ _ _)
  · rw [if_pos hrequest]
    exact iff_of_true ⟨_, rfl, .refl h, fun c hc => by cases hc⟩ fun hf => absurd hf hrequest

theorem handle_keeps (h : s.Consistent) {request : List Byte} {draw : Nat → MulticastDraw}
    {o : ArcOutcome} (hrun : s.handle named request draw = some o) : Keeps s o.server := by
  unfold handle at hrun
  split at hrun
  · cases hrun
    exact .refl h
  cases hcode : ArcOpcode.ofCode (u16At request 6) with
  | channelsAndFlowsCount =>
      rw [hcode] at hrun
      obtain ⟨c, _, rfl⟩ := Option.map_eq_some_iff.mp hrun
      exact .refl h
  | getDeviceNames =>
      rw [hcode] at hrun
      obtain ⟨c, _, rfl⟩ := Option.map_eq_some_iff.mp hrun
      exact .refl h
  | getReceiveChannels => rw [hcode] at hrun; exact (list_safe h hrun).keeps
  | getTransmitChannels => rw [hcode] at hrun; exact (list_safe h hrun).keeps
  | getTransmitChannelsFriendlyNames => rw [hcode] at hrun; exact (list_safe h hrun).keeps
  | queryTxFlows => rw [hcode] at hrun; exact (list_safe h hrun).keeps
  | queryRxFlows => rw [hcode] at hrun; exact (list_safe h hrun).keeps
  | renameTxChannels => rw [hcode] at hrun; exact (renameTxChannels_safe h hrun).keeps
  | renameRxChannels => rw [hcode] at hrun; exact (renameRxChannels_safe h hrun).keeps
  | createMulticastTxFlow => rw [hcode] at hrun; exact (createMulticastTxFlow_safe h hrun).keeps
  | deleteMulticastTxFlow => rw [hcode] at hrun; exact (deleteMulticastTxFlow_safe h hrun).keeps
  | setChannelsSubscriptions =>
      rw [hcode] at hrun
      exact (setChannelsSubscriptions_safe h hrun).keeps
  | code3014 =>
      rw [hcode] at hrun
      rw [removeSubscription_server hrun]
      exact .refl h
  | getDeviceName | code2320 | code1100 | code1102 | code3300 | reboot | clearConfig | unknown =>
      rw [hcode] at hrun
      cases hrun
      exact .refl h

/-! ## Runs -/

theorem start_consistent (cfg : ArcConfig) : (start cfg).Consistent := by
  have hsaved : ∀ (src : List ChannelSettings) (dst : List ArcChannel),
      (loadAndInit src dst).2.length ≤ (loadAndInit src dst).1.length := by
    intro src dst
    rw [loadAndInit, List.length_map, List.length_zipIdx, List.length_append, List.length_replicate]
    omega
  refine ⟨hsaved _ _, hsaved _ _, fun sub hsub => ?_, List.length_replicate, fun t ht => ?_⟩
  · cases hsub
  · cases ht

theorem multicastsStep_tabled (h : s.Consistent) (e : MulticastEvent) :
    (s.multicastsStep e).Tabled := by
  have hstep := @Tabled.step s.multicastDevice _ h.multicasts s.selfInfo.sampleRate e
  cases e with
  | check _ _ => exact h.multicasts
  | create _ => exact h.multicasts
  | delete _ => exact h.multicasts
  | load _ _ | publish | grace _ _ _ _ | unicast _ | drain _ | expire _ | shutdown | stop =>
      exact hstep

theorem step_keeps (h : s.Consistent) {e : ArcEvent} {calls : List ArcCall}
    (hrun : s.step named e = some (s', calls)) : Keeps s s' := by
  cases e with
  | datagram request draw =>
      rw [step] at hrun
      split at hrun
      · cases hrun
        exact .refl h
      · obtain ⟨o, ho, heq⟩ := Option.map_eq_some_iff.mp hrun
        cases heq
        exact handle_keeps h ho
  | subscriber subscriptions flowsInfo =>
      cases hrun
      refine ⟨⟨h.savedRx, h.savedTx, fun sub hsub => ?_, h.multicasts⟩, rfl⟩
      cases hsub
      rw [List.length_map, List.length_range]
  | transmitter flags =>
      cases hrun
      exact ⟨⟨h.savedRx, h.savedTx, h.subscriptions, new_tabled flags⟩, rfl⟩
  | multicasts e =>
      cases hrun
      exact ⟨⟨h.savedRx, h.savedTx, h.subscriptions, multicastsStep_tabled h e⟩, rfl⟩
  | mdnsShutdown =>
      cases hrun
      exact ⟨⟨h.savedRx, h.savedTx, h.subscriptions, h.multicasts⟩, rfl⟩

/-- What is asked of an event: of a datagram with a header that it is harmless. -/
def EventHarmless (named : String → Bool) (s : ArcServer) : ArcEvent → Prop
  | .datagram request draw => HEADER_LENGTH ≤ request.length → s.Harmless named request draw
  | _ => True

theorem step_safe_iff (h : s.Consistent) (e : ArcEvent) :
    (∃ s' calls, s.step named e = some (s', calls) ∧
      ∀ c ∈ calls, c.InRange s.selfInfo.rxChannels.length) ↔ s.EventHarmless named e := by
  cases e with
  | datagram request draw =>
      rw [step, EventHarmless]
      by_cases hshort : request.length < HEADER_LENGTH
      · rw [if_pos hshort]
        exact iff_of_true ⟨s, [], rfl, fun c hc => by cases hc⟩ fun hge =>
          absurd hshort (Nat.not_lt.mpr hge)
      · rw [if_neg hshort, forall_prop_of_true (Nat.not_lt.mp hshort), ← handle_safe_iff h]
        constructor
        · rintro ⟨s', calls, hrun, hcalls⟩
          obtain ⟨o, ho, heq⟩ := Option.map_eq_some_iff.mp hrun
          cases heq
          exact ⟨o, ho, handle_keeps h ho, hcalls⟩
        · rintro ⟨o, ho, hsafe⟩
          exact ⟨o.server, o.calls, by rw [ho]; rfl, hsafe.calls⟩
  | subscriber _ _ => exact iff_of_true ⟨_, _, rfl, fun c hc => by cases hc⟩ trivial
  | transmitter _ => exact iff_of_true ⟨_, _, rfl, fun c hc => by cases hc⟩ trivial
  | multicasts _ => exact iff_of_true ⟨_, _, rfl, fun c hc => by cases hc⟩ trivial
  | mdnsShutdown => exact iff_of_true ⟨_, _, rfl, fun c hc => by cases hc⟩ trivial

/-- A run of the server is over all its events, with indices that are there
forwarded only, exactly if every datagram is harmless in the state it finds. -/
theorem datagrams_survived_iff (named : String → Bool) (cfg : ArcConfig) (events : List ArcEvent) :
    (∃ s' calls, (start cfg).run named events = some (s', calls) ∧
      ∀ cs ∈ calls, ∀ c ∈ cs, c.InRange cfg.selfInfo.rxChannels.length) ↔
    Serve.EachOk (step named) (EventHarmless named) (start cfg) events := by
  have hlen : (start cfg).selfInfo.rxChannels.length = cfg.selfInfo.rxChannels.length := by
    show (loadAndInit _ _).2.length = _
    rw [loadAndInit, List.length_map, List.length_zipIdx]
  refine @Serve.items_spec_iff ArcServer ArcEvent (List ArcCall) (step named)
    (EventHarmless named)
    (fun s => s.Consistent ∧ s.selfInfo.rxChannels.length = cfg.selfInfo.rxChannels.length)
    (fun cs => ∀ c ∈ cs, c.InRange cfg.selfInfo.rxChannels.length) ?_ ?_ _ _
    ⟨start_consistent cfg, hlen⟩
  · rintro s e s' calls ⟨hs, hn⟩ hrun
    have hkeeps := step_keeps hs hrun
    exact ⟨hkeeps.consistent, hkeeps.rxChannels.trans hn⟩
  · rintro s e ⟨hs, hn⟩
    rw [← hn]
    exact step_safe_iff hs e

/-- A request to delete that does not say how many bundles stops the server. -/
theorem delete_without_count_panics :
    ¬ ∃ s' calls, (start ⟨⟨0, 0, [], [], 24, 0, 48000⟩, "", "", "", [], []⟩).run (fun _ => true)
      [.datagram [0x27, 0x29, 0, 10, 0, 1, 0x22, 0x02, 0, 0] fun _ => ⟨[], ⟨0, true⟩⟩] =
        some (s', calls) ∧
      ∀ cs ∈ calls, ∀ c ∈ cs, c.InRange 0 := by
  rintro ⟨s', calls, hrun, _⟩
  cases hrun

end ArcServer

end Inferno
