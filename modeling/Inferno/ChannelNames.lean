import Inferno.ArcServerSafety

/-!
# Names that are kept

The names that `rename_tx_channels` and `rename_rx_channels` give are saved with
each rename, and loaded at the next start. What is saved is told by the last
name of each channel (`Holds`), over every run of the server (`run_namesKept`);
loading gives that name back unless it is empty, which is taken for none
(`names_survive`).

A name of a channel to transmit is advertised as part of a DNS label, now and
after every start. Its length is bounded by the datagram only, that of a label
by the DNS (`name_advertisable_iff`).
-/

namespace Inferno

open BinarySerde ArcServer

/-! ## Renames -/

inductive Direction where
  | rx
  | tx
deriving DecidableEq

/-- A name for a channel. -/
structure Rename where
  direction : Direction
  index : Nat
  name : String
deriving DecidableEq

/-- The last name that a channel got. -/
def lastName (history : List Rename) (d : Direction) (i : Nat) : Option String :=
  history.foldl (fun last r => if r.direction = d ∧ r.index = i then some r.name else last) none

@[simp] theorem lastName_nil (d : Direction) : lastName [] d = fun _ => none := rfl

theorem lastName_append_singleton (history : List Rename) (r : Rename) (d : Direction) (i : Nat) :
    lastName (history ++ [r]) d i =
      if r.direction = d ∧ r.index = i then some r.name else lastName history d i := by
  simp [lastName]

theorem lastName_append_same (history : List Rename) (d : Direction) (i : Nat) (name : String) :
    lastName (history ++ [⟨d, i, name⟩]) d =
      Function.update (lastName history d) i (some name) := by
  funext j
  rw [lastName_append_singleton, Function.update_apply]
  simp [eq_comm]

theorem lastName_append_other (history : List Rename) {r : Rename} {d : Direction}
    (hd : r.direction ≠ d) : lastName (history ++ [r]) d = lastName history d := by
  funext j
  rw [lastName_append_singleton, if_neg fun h => hd h.1]

/-! ## Saved names -/

/-- The saved settings, and the channels they are for. -/
structure SavedNames where
  saved : List ChannelSettings
  channels : List ArcChannel

namespace SavedNames

/-- The entry that is saved for a channel. -/
def entry (i : Nat) : Option String → ChannelSettings
  | some name => ⟨i + 1, name⟩
  | none => ⟨0, ""⟩

/-- Every channel has the name it was given, or the one it was made with, and
what is saved says so. -/
structure Holds (fresh : List ArcChannel) (given : Nat → Option String) (c : SavedNames) :
    Prop where
  saved_length : c.saved.length = fresh.length
  channels_length : c.channels.length = fresh.length
  saved : ∀ i < fresh.length, c.saved[i]? = some (entry i (given i))
  channels : ∀ (i : Nat) ch, fresh[i]? = some ch →
    c.channels[i]? = some { ch with friendlyName := (given i).getD ch.friendlyName }

variable {fresh : List ArcChannel} {given : Nat → Option String} {c : SavedNames}

theorem loadAndInit_length (src : List ChannelSettings) (dst : List ArcChannel) :
    (loadAndInit src dst).1.length = max src.length dst.length ∧
      (loadAndInit src dst).2.length = dst.length := by
  simp only [loadAndInit, List.length_append, List.length_replicate, List.length_map,
    List.length_zipIdx, and_true]
  omega

/-- What loading makes of a channel. -/
theorem loadAndInit_channel (src : List ChannelSettings) {dst : List ArcChannel} {i : Nat}
    {ch : ArcChannel} (hch : dst[i]? = some ch) :
    (loadAndInit src dst).2[i]? = some (match src[i]? with
      | some cs =>
          if cs.id = 0 ∨ cs.friendlyName = "" then ch
          else if i ≠ cs.id - 1 then ch
          else { ch with friendlyName := cs.friendlyName }
      | none => ch) := by
  have hzip : dst.zipIdx[i]? = some (ch, i) := by
    rw [List.getElem?_zipIdx, hch, Option.map_some, Nat.zero_add]
  refine List.getElem?_map.trans ((congrArg (Option.map _) hzip).trans ?_)
  change some (match src[i]? with
    | some cs =>
        if cs.id = 0 ∨ cs.friendlyName = "" then ch
        else if i ≠ cs.id - 1 then ch
        else { ch with friendlyName := cs.friendlyName }
    | none => ch) = _
  cases src[i]? <;> rfl

/-- Nothing is stored. -/
theorem holds_load (fresh : List ArcChannel) :
    Holds fresh (fun _ => none) ⟨(loadAndInit [] fresh).1, (loadAndInit [] fresh).2⟩ := by
  have hlen := loadAndInit_length [] fresh
  refine ⟨by simpa using hlen.1, hlen.2, fun i hi => ?_, fun i ch hch => ?_⟩
  · simp [loadAndInit, entry, hi]
  · dsimp only
    rw [loadAndInit_channel [] hch]
    simp

theorem Holds.rename (h : Holds fresh given c) {i : Nat} {name : String}
    {saved : List ChannelSettings} {channels : List ArcChannel}
    (hrun : renameChannel c.saved c.channels i name = some (saved, channels)) :
    Holds fresh (Function.update given i (some name)) ⟨saved, channels⟩ := by
  unfold renameChannel at hrun
  split at hrun
  swap
  · cases hrun
  next hlt =>
  cases hrun
  refine ⟨by simpa using h.saved_length, by simpa using h.channels_length, fun j hj => ?_,
    fun j ch hch => ?_⟩
  · dsimp only
    rw [List.getElem?_set]
    by_cases hij : i = j
    · subst hij
      simp [entry, hlt.1]
    · rw [if_neg hij, Function.update_of_ne (Ne.symm hij), h.saved j hj]
  · dsimp only
    by_cases hij : i = j
    · subst hij
      rw [List.getElem?_modify_eq, h.channels i ch hch]
      simp
    · rw [List.getElem?_modify_ne _ _ hij, h.channels j ch hch, Function.update_of_ne (Ne.symm hij)]

/-- What was saved is loaded, but for empty names. -/
theorem Holds.reload (h : Holds fresh given c) {i : Nat} {ch : ArcChannel}
    (hch : fresh[i]? = some ch) :
    (loadAndInit c.saved fresh).2[i]? = some { ch with
      friendlyName := ((given i).filter (· ≠ "")).getD ch.friendlyName } := by
  have hi := (List.getElem?_eq_some_iff.mp hch).1
  rw [loadAndInit_channel _ hch, h.saved i hi]
  cases given i with
  | none => simp [entry]
  | some name => by_cases hname : name = "" <;> simp [entry, Option.filter, hname]

end SavedNames

/-! ## Channels as they are made -/

/-- `format!("{id:02}")`. -/
def twoDigits (id : Nat) : String := if id < 10 then "0" ++ toString id else toString id

def makeRxChannels (count : Nat) : List ArcChannel :=
  (List.range count).map fun k => ⟨twoDigits (k + 1), "RX " ++ toString (k + 1)⟩

def makeTxChannels (count : Nat) : List ArcChannel :=
  (List.range count).map fun k => ⟨twoDigits (k + 1), "TX " ++ toString (k + 1)⟩

/-- A device with so many channels, of which nothing is saved. -/
def ArcConfig.fresh (cfg : ArcConfig) (rxCount txCount : Nat) : ArcConfig :=
  { cfg with
    selfInfo := { cfg.selfInfo with
      rxChannels := makeRxChannels rxCount
      txChannels := makeTxChannels txCount }
    savedRx := []
    savedTx := [] }

/-- What is in the storage: the settings are written with each rename. -/
def stored (history : List Rename) (d : Direction) (saved : List ChannelSettings) :
    List ChannelSettings :=
  if history.any (·.direction = d) then saved else []

/-- The device at its next start. -/
def ArcConfig.next (cfg : ArcConfig) (history : List Rename) (s : ArcServer) : ArcConfig :=
  { cfg with
    savedRx := stored history .rx s.savedRx
    savedTx := stored history .tx s.savedTx }

/-! ## Names in requests -/

/-- The name that an item of a request gives to one of so many channels. -/
def acceptedName (d : Direction) (channels : Nat) (content : List Byte)
    (channelId newNameOffset : BitVec 16) : Option Rename :=
  let nameOffset := newNameOffset.toNat - HEADER_LENGTH
  let index := channelId.toNat - 1
  if channelId = 0 ∨ nameOffset = 0 then none
  else
    match read0termStrFromBuffer content nameOffset with
    | some (some newName) => if index < channels then some ⟨d, index, newName⟩ else none
    | _ => none

/-- The names that an event gives, to so many channels of each direction. -/
def ArcEvent.renames (rxCount txCount : Nat) : ArcEvent → List Rename
  | .datagram request _ =>
      let content := request.drop HEADER_LENGTH
      if request.length < HEADER_LENGTH ∨ u16At request 8 ≠ 0 then []
      else
        match ArcOpcode.ofCode (u16At request 6) with
        | .renameTxChannels => (requestItems RenameTxRequest content).flatMap fun r =>
            (acceptedName .tx txCount content r.channelId r.newNameOffset).toList
        | .renameRxChannels => (requestItems RenameRxRequest content).flatMap fun r =>
            (acceptedName .rx rxCount content r.channelId r.newNameOffset).toList
        | _ => []
  | _ => []

/-- An item gives its name, or leaves everything. -/
theorem renameItem_accepted (d : Direction) {channels : Nat}
    {rename : Nat → String → Option ArcServer} {s s' : ArcServer} {content : List Byte}
    {channelId newNameOffset : BitVec 16} {r : Option Nat}
    (hrun : renameItem channels rename s content channelId newNameOffset = some (s', r)) :
    (acceptedName d channels content channelId newNameOffset = none ∧ s' = s) ∨
      ∃ i name, acceptedName d channels content channelId newNameOffset = some ⟨d, i, name⟩ ∧
        rename i name = some s' := by
  unfold renameItem at hrun
  unfold acceptedName
  dsimp only at hrun ⊢
  split at hrun
  next hskip =>
    cases hrun
    exact .inl ⟨if_pos hskip, rfl⟩
  next hitem =>
    rw [if_neg hitem]
    split at hrun
    · cases hrun
    next hread =>
      cases hrun
      exact .inl ⟨by rw [hread], rfl⟩
    next newName hread =>
      rw [hread]
      split at hrun
      next hlt =>
        obtain ⟨s₁, h₁, heq⟩ := Option.map_eq_some_iff.mp hrun
        cases heq
        exact .inr ⟨_, newName, if_pos hlt, h₁⟩
      next hge =>
        cases hrun
        exact .inl ⟨if_neg hge, rfl⟩

/-! ## Runs -/

/-- What the server knows of the names of its channels, after so many renames.
As long as the responder runs, every name has been announced. -/
structure NamesKept (named : String → Bool) (cfg : ArcConfig) (history : List Rename)
    (s : ArcServer) : Prop where
  tx : SavedNames.Holds cfg.selfInfo.txChannels (lastName history .tx)
    ⟨s.savedTx, s.selfInfo.txChannels⟩
  rx : SavedNames.Holds cfg.selfInfo.rxChannels (lastName history .rx)
    ⟨s.savedRx, s.selfInfo.rxChannels⟩
  hostname : s.friendlyHostname = cfg.friendlyHostname
  announced : s.mdnsRunning = true → ∀ (i : Nat) fresh ch,
    cfg.selfInfo.txChannels[i]? = some fresh → s.labelsOk named fresh = true →
    s.selfInfo.txChannels[i]? = some ch → s.labelsOk named ch = true

/-- The names are not touched. -/
structure SameNames (s s' : ArcServer) : Prop where
  savedTx : s'.savedTx = s.savedTx
  savedRx : s'.savedRx = s.savedRx
  txChannels : s'.selfInfo.txChannels = s.selfInfo.txChannels
  rxChannels : s'.selfInfo.rxChannels = s.selfInfo.rxChannels
  hostname : s'.friendlyHostname = s.friendlyHostname
  mdnsRunning : s'.mdnsRunning = true → s.mdnsRunning = true

theorem SameNames.refl (s : ArcServer) : SameNames s s := ⟨rfl, rfl, rfl, rfl, rfl, id⟩

variable {named : String → Bool} {cfg : ArcConfig} {history : List Rename} {s s' : ArcServer}

theorem labelsOk_congr {t t' : ArcServer} (h : t'.friendlyHostname = t.friendlyHostname)
    (ch : ArcChannel) : t'.labelsOk named ch = t.labelsOk named ch := by
  rw [labelsOk, labelsOk, h]

theorem NamesKept.same (h : NamesKept named cfg history s) (hsame : SameNames s s') :
    NamesKept named cfg history s' := by
  refine ⟨?_, ?_, hsame.hostname.trans h.hostname, fun hrunning i fresh ch hfresh hok hch => ?_⟩
  · rw [hsame.savedTx, hsame.txChannels]
    exact h.tx
  · rw [hsame.savedRx, hsame.rxChannels]
    exact h.rx
  · rw [hsame.txChannels] at hch
    rw [labelsOk_congr hsame.hostname] at hok ⊢
    exact h.announced (hsame.mdnsRunning hrunning) i fresh ch hfresh hok hch

theorem namesKept_start (hrx : cfg.savedRx = []) (htx : cfg.savedTx = []) :
    NamesKept named cfg [] (start cfg) := by
  have hload : ∀ fresh : List ArcChannel, (loadAndInit [] fresh).2 = fresh := by
    intro fresh
    refine List.ext_getElem? fun i => ?_
    cases hch : fresh[i]? with
    | none =>
        rw [List.getElem?_eq_none_iff, (SavedNames.loadAndInit_length [] fresh).2]
        exact List.getElem?_eq_none_iff.mp hch
    | some ch => rw [SavedNames.loadAndInit_channel [] hch, List.getElem?_nil]
  refine ⟨?_, ?_, rfl, fun _ i fresh ch hfresh hok hch => ?_⟩
  · have h := SavedNames.holds_load cfg.selfInfo.txChannels
    rwa [← htx] at h
  · have h := SavedNames.holds_load cfg.selfInfo.rxChannels
    rwa [← hrx] at h
  · change (loadAndInit cfg.savedTx cfg.selfInfo.txChannels).2[i]? = some ch at hch
    rw [htx, hload, hfresh] at hch
    cases hch
    exact hok

theorem NamesKept.renameRxChannel (h : NamesKept named cfg history s) {i : Nat} {name : String}
    (hrun : s.renameRxChannel i name = some s') :
    NamesKept named cfg (history ++ [⟨.rx, i, name⟩]) s' := by
  obtain ⟨⟨saved, channels⟩, h₁, hrun⟩ := Option.bind_eq_some_iff.mp hrun
  cases hrun
  refine ⟨?_, ?_, h.hostname, h.announced⟩
  · rw [lastName_append_other history fun hd => by cases hd]
    exact h.tx
  · rw [lastName_append_same]
    exact h.rx.rename h₁

/-- The channel has its new name, and the others keep theirs. -/
theorem NamesKept.renameTxChannel (h : NamesKept named cfg history s) {i : Nat} {name : String}
    (hrun : s.renameTxChannel i name = some s')
    (hadd : (s'.addTxChannel named i).isSome) :
    NamesKept named cfg (history ++ [⟨.tx, i, name⟩]) s' := by
  obtain ⟨⟨saved, channels⟩, h₁, hrun⟩ := Option.bind_eq_some_iff.mp hrun
  cases hrun
  refine ⟨?_, ?_, h.hostname, fun hrunning j fresh ch hfresh hok hj => ?_⟩
  · rw [lastName_append_same]
    exact h.tx.rename h₁
  · rw [lastName_append_other history fun hd => by cases hd]
    exact h.rx
  · unfold renameChannel at h₁
    split at h₁
    swap
    · cases h₁
    next hlt =>
    cases h₁
    by_cases hij : i = j
    · subst hij
      have hlt' : i < (s.selfInfo.txChannels.modify i
          fun ch => { ch with friendlyName := name }).length := by
        rw [List.length_modify]
        exact hlt.2
      obtain ⟨ch', hch', hok'⟩ := (addTxChannel_isSome_iff hlt').mp hadd hrunning
      cases hj.symm.trans hch'
      exact hok'
    · rw [List.getElem?_modify_ne _ _ hij] at hj
      exact h.announced hrunning j fresh ch hfresh hok hj

theorem NamesKept.renameTxItem (h : NamesKept named cfg history s) {content : List Byte}
    {r : RenameTxRequest} {b : Option Nat}
    (hrun : s.renameTxItem named content r = some (s', b)) :
    NamesKept named cfg (history ++ (acceptedName .tx cfg.selfInfo.txChannels.length content
      r.channelId r.newNameOffset).toList) s' := by
  have hlen := h.tx.channels_length
  rw [← hlen]
  rcases renameItem_accepted .tx hrun with ⟨hnone, rfl⟩ | ⟨i, name, hsome, hrename⟩
  · rw [hnone, Option.toList_none, List.append_nil]
    exact h
  · rw [hsome, Option.toList_some]
    obtain ⟨_, _, hrename⟩ := Option.bind_eq_some_iff.mp hrename
    obtain ⟨s₁, h₁, hrename⟩ := Option.bind_eq_some_iff.mp hrename
    obtain ⟨_, hadd, hrename⟩ := Option.bind_eq_some_iff.mp hrename
    cases hrename
    exact h.renameTxChannel h₁ (Option.isSome_of_eq_some hadd)

theorem NamesKept.renameRxItem (h : NamesKept named cfg history s) {content : List Byte}
    {r : RenameRxRequest} {b : Option Nat} (hrun : s.renameRxItem content r = some (s', b)) :
    NamesKept named cfg (history ++ (acceptedName .rx cfg.selfInfo.rxChannels.length content
      r.channelId r.newNameOffset).toList) s' := by
  have hlen := h.rx.channels_length
  rw [← hlen]
  rcases renameItem_accepted .rx hrun with ⟨hnone, rfl⟩ | ⟨i, name, hsome, hrename⟩
  · rw [hnone, Option.toList_none, List.append_nil]
    exact h
  · rw [hsome, Option.toList_some]
    exact h.renameRxChannel hrename

theorem NamesKept.renameTxChannels (h : NamesKept named cfg history s) {request : List Byte}
    {o : ArcOutcome} (hrun : s.renameTxChannels named request = some o) :
    NamesKept named cfg (history ++ (requestItems RenameTxRequest (request.drop HEADER_LENGTH)).flatMap
      fun r => (acceptedName .tx cfg.selfInfo.txChannels.length (request.drop HEADER_LENGTH)
        r.channelId r.newNameOffset).toList) o.server := by
  obtain ⟨renames, hrenames, hrun⟩ := Option.bind_eq_some_iff.mp hrun
  obtain ⟨⟨s₁, renamed⟩, hitems, hrun⟩ := Option.bind_eq_some_iff.mp hrun
  have h₁ : NamesKept named cfg _ s₁ :=
    Serve.items_history (fun _ _ _ _ _ hs hitem => hs.renameTxItem hitem) h hitems
  rw [requestItems, hrenames, Option.getD_some]
  dsimp only at hrun
  split at hrun
  · cases hrun
    exact h₁
  · cases hrun
    exact h₁

theorem NamesKept.renameRxChannels (h : NamesKept named cfg history s) {request : List Byte}
    {o : ArcOutcome} (hrun : s.renameRxChannels request = some o) :
    NamesKept named cfg (history ++ (requestItems RenameRxRequest (request.drop HEADER_LENGTH)).flatMap
      fun r => (acceptedName .rx cfg.selfInfo.rxChannels.length (request.drop HEADER_LENGTH)
        r.channelId r.newNameOffset).toList) o.server := by
  obtain ⟨renames, hrenames, hrun⟩ := Option.bind_eq_some_iff.mp hrun
  obtain ⟨⟨s₁, renamed⟩, hitems, hrun⟩ := Option.bind_eq_some_iff.mp hrun
  obtain ⟨_, _, hrun⟩ := Option.bind_eq_some_iff.mp hrun
  cases hrun
  rw [requestItems, hrenames, Option.getD_some]
  exact Serve.items_history (fun _ _ _ _ _ hs hitem => hs.renameRxItem hitem) h hitems

/-- Other requests leave the names alone. -/
theorem handle_sameNames {request : List Byte} {draw : Nat → MulticastDraw} {o : ArcOutcome}
    (hrun : s.handle named request draw = some o)
    (htx : ArcOpcode.ofCode (u16At request 6) ≠ .renameTxChannels)
    (hrx : ArcOpcode.ofCode (u16At request 6) ≠ .renameRxChannels) : SameNames s o.server := by
  have hlist : ∀ {listing : List Byte → Option (BitVec 16 × List Byte)},
      s.list request listing = some o → SameNames s o.server := by
    intro listing hrun
    obtain ⟨_, _, hrun⟩ := Option.bind_eq_some_iff.mp hrun
    cases hrun
    exact .refl s
  have hanswers : ∀ {code : BitVec 16} {content : Option (List Byte)},
      content.map (s.answer request code) = some o → SameNames s o.server := by
    intro code content hrun
    obtain ⟨_, _, rfl⟩ := Option.map_eq_some_iff.mp hrun
    exact .refl s
  unfold handle at hrun
  split at hrun
  · cases hrun
    exact .refl s
  cases hcode : ArcOpcode.ofCode (u16At request 6) with
  | renameTxChannels => exact absurd hcode htx
  | renameRxChannels => exact absurd hcode hrx
  | channelsAndFlowsCount => rw [hcode] at hrun; exact hanswers hrun
  | getDeviceNames => rw [hcode] at hrun; exact hanswers hrun
  | getReceiveChannels => rw [hcode] at hrun; exact hlist hrun
  | getTransmitChannels => rw [hcode] at hrun; exact hlist hrun
  | getTransmitChannelsFriendlyNames => rw [hcode] at hrun; exact hlist hrun
  | queryTxFlows => rw [hcode] at hrun; exact hlist hrun
  | queryRxFlows => rw [hcode] at hrun; exact hlist hrun
  | createMulticastTxFlow =>
      rw [hcode] at hrun
      obtain ⟨offsets, _, hrun⟩ := Option.bind_eq_some_iff.mp hrun
      obtain ⟨⟨w, created⟩, _, hrun⟩ := Option.bind_eq_some_iff.mp hrun
      cases hrun
      exact ⟨rfl, rfl, rfl, rfl, rfl, id⟩
  | deleteMulticastTxFlow =>
      rw [hcode] at hrun
      dsimp only [deleteMulticastTxFlow] at hrun
      split at hrun
      · cases hrun
      obtain ⟨⟨w, deleted⟩, _, hrun⟩ := Option.bind_eq_some_iff.mp hrun
      cases hrun
      exact ⟨rfl, rfl, rfl, rfl, rfl, id⟩
  | setChannelsSubscriptions =>
      rw [hcode] at hrun
      dsimp only [setChannelsSubscriptions] at hrun
      split at hrun
      · cases hrun
        exact .refl s
      · obtain ⟨reqs, _, hrun⟩ := Option.bind_eq_some_iff.mp hrun
        obtain ⟨⟨sub, calls⟩, _, hrun⟩ := Option.bind_eq_some_iff.mp hrun
        cases hrun
        exact ⟨rfl, rfl, rfl, rfl, rfl, id⟩
  | code3014 =>
      rw [hcode] at hrun
      rw [removeSubscription_server hrun]
      exact .refl s
  | getDeviceName | code2320 | code1100 | code1102 | code3300 | reboot | clearConfig | unknown =>
      rw [hcode] at hrun
      cases hrun
      exact .refl s

/-- What an event does to the names is what it says. -/
theorem NamesKept.step (h : NamesKept named cfg history s) {e : ArcEvent} {calls : List ArcCall}
    (hrun : s.step named e = some (s', calls)) :
    NamesKept named cfg (history ++ e.renames cfg.selfInfo.rxChannels.length
      cfg.selfInfo.txChannels.length) s' := by
  cases e with
  | datagram request draw =>
      rw [ArcServer.step] at hrun
      rw [ArcEvent.renames]
      split at hrun
      next hshort =>
        cases hrun
        rw [if_pos (.inl hshort), List.append_nil]
        exact h
      next hlong =>
        obtain ⟨o, ho, heq⟩ := Option.map_eq_some_iff.mp hrun
        cases heq
        by_cases hrequest : u16At request 8 = 0
        swap
        · rw [if_pos (.inr hrequest), List.append_nil]
          rw [handle, if_pos hrequest] at ho
          cases ho
          exact h
        rw [if_neg (not_or.mpr ⟨hlong, not_not_intro hrequest⟩)]
        have hhandle := ho
        rw [handle, if_neg (not_not_intro hrequest)] at ho
        split
        next hcode =>
          rw [hcode] at ho
          exact h.renameTxChannels ho
        next hcode =>
          rw [hcode] at ho
          exact h.renameRxChannels ho
        next htx hrx =>
          rw [List.append_nil]
          exact h.same (handle_sameNames hhandle htx hrx)
  | subscriber _ _ =>
      cases hrun
      exact (List.append_nil history).symm ▸ h.same ⟨rfl, rfl, rfl, rfl, rfl, id⟩
  | transmitter _ =>
      cases hrun
      exact (List.append_nil history).symm ▸ h.same ⟨rfl, rfl, rfl, rfl, rfl, id⟩
  | multicasts _ =>
      cases hrun
      exact (List.append_nil history).symm ▸ h.same ⟨rfl, rfl, rfl, rfl, rfl, id⟩
  | mdnsShutdown =>
      cases hrun
      exact (List.append_nil history).symm ▸ h.same ⟨rfl, rfl, rfl, rfl, rfl, fun hf => by cases hf⟩

/-- The names that a run gives, in order. -/
def runRenames (rxCount txCount : Nat) (events : List ArcEvent) : List Rename :=
  events.flatMap (ArcEvent.renames rxCount txCount)

@[simp] theorem makeRxChannels_length (count : Nat) : (makeRxChannels count).length = count := by
  simp [makeRxChannels]

@[simp] theorem makeTxChannels_length (count : Nat) : (makeTxChannels count).length = count := by
  simp [makeTxChannels]

theorem run_namesKept {rxCount txCount : Nat} {events : List ArcEvent} {calls : List (List ArcCall)}
    (hrun : (start (cfg.fresh rxCount txCount)).run named events = some (s, calls)) :
    NamesKept named (cfg.fresh rxCount txCount) (runRenames rxCount txCount events) s := by
  have hstart : NamesKept named (cfg.fresh rxCount txCount) [] (start (cfg.fresh rxCount txCount)) :=
    namesKept_start rfl rfl
  have h := Serve.items_history (fun _ _ _ _ _ hs hstep => hs.step hstep) hstart hrun
  rw [List.nil_append] at h
  change NamesKept named _ (events.flatMap (ArcEvent.renames (makeRxChannels rxCount).length
    (makeTxChannels txCount).length)) s at h
  rwa [makeRxChannels_length, makeTxChannels_length] at h

/-! ## After a restart -/

/-- A channel that was given a name has it, but for an empty one. -/
def survivingName (history : List Rename) (d : Direction) (i : Nat) (ch : ArcChannel) :
    ArcChannel :=
  { ch with friendlyName := ((lastName history d i).filter (· ≠ "")).getD ch.friendlyName }

theorem lastName_none {d : Direction} (h : ∀ r ∈ history, r.direction ≠ d) (i : Nat) :
    lastName history d i = none := by
  induction history using List.reverseRecOn with
  | nil => rfl
  | append_singleton history r ih =>
      rw [lastName_append_other history (h r (by simp))]
      exact ih fun r' hr' => h r' (by simp [hr'])

/-- What is loaded from the storage. -/
theorem load_stored {d : Direction} {fresh : List ArcChannel} {c : SavedNames}
    (h : SavedNames.Holds fresh (lastName history d) c) :
    (loadAndInit (stored history d c.saved) fresh).2 = fresh.mapIdx (survivingName history d) := by
  refine List.ext_getElem? fun i => ?_
  rw [List.getElem?_mapIdx]
  cases hch : fresh[i]? with
  | none =>
      rw [Option.map_none, List.getElem?_eq_none_iff, (SavedNames.loadAndInit_length _ fresh).2]
      exact List.getElem?_eq_none_iff.mp hch
  | some ch =>
      rw [Option.map_some, stored]
      split
      next hsome => exact h.reload hch
      next hnone =>
        have hnever : ∀ r ∈ history, r.direction ≠ d := by simpa using hnone
        rw [SavedNames.loadAndInit_channel [] hch, survivingName, lastName_none hnever]
        rfl

theorem NamesKept.restarted (h : NamesKept named cfg history s) :
    (start (cfg.next history s)).selfInfo.txChannels =
        cfg.selfInfo.txChannels.mapIdx (survivingName history .tx) ∧
      (start (cfg.next history s)).selfInfo.rxChannels =
        cfg.selfInfo.rxChannels.mapIdx (survivingName history .rx) :=
  ⟨load_stored h.tx, load_stored h.rx⟩

/-- After a restart every channel has its last name, and one that has no name or
an empty one the name that it was made with. -/
theorem names_survive (named : String → Bool) (cfg : ArcConfig) {rxCount txCount : Nat}
    {events : List ArcEvent} {s : ArcServer} {calls : List (List ArcCall)}
    (hrun : (start (cfg.fresh rxCount txCount)).run named events = some (s, calls)) :
    let history := runRenames rxCount txCount events
    let restarted := start ((cfg.fresh rxCount txCount).next history s)
    restarted.selfInfo.txChannels = (makeTxChannels txCount).mapIdx (survivingName history .tx) ∧
      restarted.selfInfo.rxChannels = (makeRxChannels rxCount).mapIdx (survivingName history .rx) :=
  (run_namesKept hrun).restarted

/-- A device with a channel to transmit. -/
def oneTransmitChannel : ArcConfig := ⟨⟨0, 0, [], [], 24, 0, 48000⟩, "host", "", "", [], []⟩

/-- A request to rename its channel, with the name at the end. -/
def renameRequest (name : List Byte) : List Byte :=
  [0x27, 0x29, 0, 0, 0, 1, 0x20, 0x13, 0, 0] ++ [0, 1, 0, 0, 0, 1, 0, 18] ++ name ++ [0]

/-- The channel is renamed. -/
theorem names_survive_rename : ∃ s calls,
    (start (oneTransmitChannel.fresh 0 1)).run (fun _ => true)
      [.datagram (renameRequest [0x41]) fun _ => ⟨[], ⟨0, true⟩⟩] = some (s, calls) ∧
    (start ((oneTransmitChannel.fresh 0 1).next (runRenames 0 1
      [.datagram (renameRequest [0x41]) fun _ => ⟨[], ⟨0, true⟩⟩]) s)).selfInfo.txChannels =
        [⟨"01", "A"⟩] :=
  ⟨_, _, rfl, (names_survive (fun _ => true) oneTransmitChannel (s := _) rfl).1⟩

/-- An empty name is accepted, and lost at the restart. -/
theorem empty_name_lost : ¬∀ (named : String → Bool) (cfg : ArcConfig) (rxCount txCount : Nat)
    (events : List ArcEvent) (s : ArcServer) (calls : List (List ArcCall)),
    (start (cfg.fresh rxCount txCount)).run named events = some (s, calls) →
    let history := runRenames rxCount txCount events
    ∀ (i : Nat) ch, (makeTxChannels txCount)[i]? = some ch →
      (start ((cfg.fresh rxCount txCount).next history s)).selfInfo.txChannels[i]? =
        some { ch with friendlyName := (lastName history .tx i).getD ch.friendlyName } := by
  intro h
  have hlost := h (fun _ => true) oneTransmitChannel 0 1
    [.datagram (renameRequest []) fun _ => ⟨[], ⟨0, true⟩⟩] _ _ rfl 0 _ rfl
  have hname := congrArg (Option.map ArcChannel.friendlyName) hlost
  revert hname
  decide

/-! ## Labels -/

/-- The names of which `Name::from_labels` makes a label: of at most 63 bytes. -/
def LabelRule (named : String → Bool) : Prop :=
  ∀ label : String, label ≠ "" → (named label = true ↔ label.utf8ByteSize ≤ 63)

/-- A channel's name is a label together with a hostname exactly if there is
room for the two. -/
theorem LabelRule.label_iff (h : LabelRule named) (chName host : String) :
    named (chName ++ "@" ++ host) = true ↔ chName.utf8ByteSize + 1 + host.utf8ByteSize ≤ 63 := by
  have hat : "@".utf8ByteSize = 1 := by decide
  have hsize : (chName ++ "@" ++ host).utf8ByteSize =
      chName.utf8ByteSize + 1 + host.utf8ByteSize := by
    rw [String.utf8ByteSize_append, String.utf8ByteSize_append, hat]
  have hne : chName ++ "@" ++ host ≠ "" := by
    intro hempty
    rw [hempty, String.utf8ByteSize_empty] at hsize
    omega
  rw [h _ hne, hsize]

theorem utf8ByteSize_digit : ∀ d < 10, d.repr.utf8ByteSize = 1 := by decide

theorem utf8ByteSize_repr_le {n k : Nat} (h : n < 10 ^ (k + 1)) :
    n.repr.utf8ByteSize ≤ k + 1 := by
  induction k generalizing n with
  | zero => exact (utf8ByteSize_digit n h).le
  | succ k ih =>
      by_cases hn : n < 10
      · exact (utf8ByteSize_digit n hn).trans_le (Nat.succ_pos _)
      · have hinit : (n / 10).repr.utf8ByteSize ≤ k + 1 := by
          refine ih ?_
          rw [pow_succ] at h
          exact Nat.div_lt_of_lt_mul (by omega)
        have hlast := utf8ByteSize_digit (n % 10) (Nat.mod_lt _ (by omega))
        rw [Nat.repr_eq_repr_append_repr (Nat.not_lt.mp hn), String.utf8ByteSize_append, hlast]
        omega

/-- The names that a channel is made with are short. -/
theorem makeTxChannels_short {txCount i : Nat} (hi : i + 1 < 2 ^ 16) {ch : ArcChannel}
    (hch : (makeTxChannels txCount)[i]? = some ch) :
    ch.factoryName.utf8ByteSize ≤ 8 ∧ ch.friendlyName.utf8ByteSize ≤ 8 := by
  rw [makeTxChannels, List.getElem?_map] at hch
  obtain ⟨k, hk, rfl⟩ := Option.map_eq_some_iff.mp hch
  obtain ⟨hlt, hk⟩ := List.getElem?_eq_some_iff.mp hk
  rw [List.getElem_range] at hk
  subst hk
  have hdigits : (i + 1).repr.utf8ByteSize ≤ 5 := utf8ByteSize_repr_le (by omega)
  have hzero : "0".utf8ByteSize = 1 := by decide
  have htx : "TX ".utf8ByteSize = 3 := by decide
  dsimp only
  rw [twoDigits, Nat.toString_eq_repr]
  refine ⟨?_, by rw [String.utf8ByteSize_append]; omega⟩
  split
  · rw [String.utf8ByteSize_append]
    omega
  · omega

/-- A name that was accepted can be advertised: it makes a label, and neither
giving it nor announcing it, now or after the next start, panics. -/
structure Advertisable (named : String → Bool) (cfg : ArcConfig) (history : List Rename)
    (s : ArcServer) (index : Nat) (name : String) : Prop where
  label : named (name ++ "@" ++ cfg.friendlyHostname) = true
  renamed : s.mdnsRunning = true → (s.renameTx named index name).isSome
  announced : ∃ s₁, s.renameTxChannel index name = some s₁ ∧
    (s₁.removeTxChannel named index).isSome ∧ (s₁.addTxChannel named index).isSome ∧
    let restarted := start (cfg.next (history ++ [⟨.tx, index, name⟩]) s₁)
    (restarted.removeTxChannel named index).isSome ∧ (restarted.addTxChannel named index).isSome

/-- A channel with labels for both its names. -/
theorem announceable_of {t : ArcServer} {i : Nat} {ch : ArcChannel}
    (hch : t.selfInfo.txChannels[i]? = some ch)
    (hfactory : named (ch.factoryName ++ "@" ++ t.friendlyHostname) = true)
    (hfriendly : named (ch.friendlyName ++ "@" ++ t.friendlyHostname) = true) :
    t.Announceable named i ∧ (t.removeTxChannel named i).isSome ∧
      (t.addTxChannel named i).isSome := by
  have hlabels : t.labelsOk named ch = true := by
    rw [labelsOk, hfactory, hfriendly]
    simp
  have hannounced : t.Announceable named i := ⟨ch, hch, hlabels⟩
  have hlt := (List.getElem?_eq_some_iff.mp hch).1
  exact ⟨hannounced, removeTxChannel_isSome_iff.mpr hannounced,
    (addTxChannel_isSome_iff hlt).mpr fun _ => hannounced⟩

theorem acceptedName_index {d : Direction} {channels : Nat} {content : List Byte}
    {channelId newNameOffset : BitVec 16} {r : Rename}
    (h : acceptedName d channels content channelId newNameOffset = some r) :
    r.index < channels ∧ r.index + 1 < 2 ^ 16 := by
  unfold acceptedName at h
  dsimp only at h
  split at h
  · cases h
  · split at h
    · split at h
      next hlt =>
        cases h
        have hid := channelId.isLt
        exact ⟨hlt, by dsimp only; omega⟩
      · cases h
    · cases h

theorem run_consistent {events : List ArcEvent} {calls : List (List ArcCall)}
    (hrun : (start cfg).run named events = some (s, calls)) : s.Consistent :=
  Serve.items_keeps (fun _ _ _ _ hs hstep => (step_keeps hs hstep).consistent)
    (start_consistent cfg) hrun

/-- A name that the server accepts can be advertised exactly if it fits into a
label with the hostname. -/
theorem name_advertisable_iff (hnamed : LabelRule named) (cfg : ArcConfig)
    (hhost : cfg.friendlyHostname.utf8ByteSize ≤ 31) {rxCount txCount : Nat}
    {events : List ArcEvent} {calls : List (List ArcCall)}
    (hrun : (start (cfg.fresh rxCount txCount)).run named events = some (s, calls))
    {content : List Byte} {channelId newNameOffset : BitVec 16} {r : Rename}
    (haccepted : acceptedName .tx txCount content channelId newNameOffset = some r) :
    Advertisable named (cfg.fresh rxCount txCount) (runRenames rxCount txCount events) s r.index
        r.name ↔
      r.name.utf8ByteSize + 1 + cfg.friendlyHostname.utf8ByteSize ≤ 63 := by
  refine ⟨fun h => (hnamed.label_iff _ _).mp h.label, fun hfits => ?_⟩
  have h := run_namesKept hrun
  obtain ⟨hlt, hindex⟩ := acceptedName_index haccepted
  obtain ⟨fresh, hfresh⟩ : ∃ fresh, (makeTxChannels txCount)[r.index]? = some fresh :=
    ⟨_, List.getElem?_eq_getElem (by rwa [makeTxChannels_length])⟩
  obtain ⟨hfactory, hfriendly⟩ := makeTxChannels_short hindex hfresh
  have hlabel : ∀ n : String, n.utf8ByteSize ≤ 8 →
      named (n ++ "@" ++ cfg.friendlyHostname) = true :=
    fun n hn => (hnamed.label_iff _ _).mpr (by omega)
  have hname := (hnamed.label_iff r.name cfg.friendlyHostname).mpr hfits
  have hhostname : s.friendlyHostname = cfg.friendlyHostname := h.hostname
  have hch := h.tx.channels r.index fresh hfresh
  dsimp only at hch
  obtain ⟨hlt', hget⟩ := List.getElem?_eq_some_iff.mp hch
  obtain ⟨s₁, hrename, hch₁, hhost₁, _⟩ := renameTxChannel_at (run_consistent hrun) hlt' r.name
  rw [hget] at hch₁
  obtain ⟨_, hremove, hadd⟩ := announceable_of hch₁
    (by rw [hhost₁, hhostname]; exact hlabel _ hfactory) (by rw [hhost₁, hhostname]; exact hname)
  refine ⟨hname, fun hrunning => ?_, s₁, hrename, hremove, hadd, ?_⟩
  · refine (renameTx_isSome_iff (run_consistent hrun) hlt').mpr ⟨⟨_, hch, ?_⟩, fun ch hch' _ => ?_⟩
    · refine h.announced hrunning r.index fresh _ hfresh ?_ hch
      rw [labelsOk, hhostname, hlabel _ hfactory, hlabel _ hfriendly]
      simp
    · cases hch.symm.trans hch'
      rw [labelsOk, hhostname, hlabel _ hfactory, hname]
      simp
  · have hnext := (h.renameTxChannel hrename hadd).restarted.1
    have hch₂ := congrArg (·[r.index]?) hnext
    have hfresh' : (cfg.fresh rxCount txCount).selfInfo.txChannels[r.index]? = some fresh := hfresh
    rw [List.getElem?_mapIdx, hfresh', Option.map_some] at hch₂
    refine (announceable_of hch₂ (hlabel _ hfactory) ?_).2
    change named (_ ++ "@" ++ cfg.friendlyHostname) = true
    rw [survivingName, lastName_append_same, Function.update_self]
    by_cases hempty : r.name = ""
    · simpa [Option.filter, hempty] using hlabel _ hfriendly
    · simpa [Option.filter, hempty] using hname

/-- The rule, for labels that are not empty. -/
def atMost63 (label : String) : Bool := label.utf8ByteSize ≤ 63

theorem labelRule_atMost63 : LabelRule atMost63 := fun _ _ => decide_eq_true_iff

/-- A name of one letter. -/
theorem name_advertisable_iff_letter :
    Advertisable atMost63 (oneTransmitChannel.fresh 0 1) [] (start (oneTransmitChannel.fresh 0 1)) 0
        "A" ↔ "A".utf8ByteSize + 1 + "host".utf8ByteSize ≤ 63 :=
  @name_advertisable_iff atMost63 _ labelRule_atMost63 oneTransmitChannel (by decide) 0 1 [] _ rfl
    [0, 1, 0, 0, 0, 1, 0, 18, 0x41, 0] 1 18 ⟨.tx, 0, "A"⟩ (by decide)

/-- A device with as long a hostname as there may be. -/
def longHostname : ArcConfig :=
  { oneTransmitChannel with friendlyHostname := "hhhhhhhhhhhhhhhhhhhhhhhhhhhhhhh" }

/-- A name of 32 bytes is accepted, and makes no label with such a hostname. -/
theorem long_name_not_advertisable : ¬∀ (named : String → Bool), LabelRule named →
    ∀ (cfg : ArcConfig), cfg.friendlyHostname.utf8ByteSize ≤ 31 → ∀ (rxCount txCount : Nat)
    (events : List ArcEvent) (s : ArcServer) (calls : List (List ArcCall)),
    (start (cfg.fresh rxCount txCount)).run named events = some (s, calls) →
    ∀ (content : List Byte) (channelId newNameOffset : BitVec 16) (r : Rename),
    acceptedName .tx txCount content channelId newNameOffset = some r →
    Advertisable named (cfg.fresh rxCount txCount) (runRenames rxCount txCount events) s r.index
      r.name := by
  intro h
  have hadvertisable := h atMost63 labelRule_atMost63 longHostname (by decide) 0 1 [] _ _ rfl
    ([0, 1, 0, 0, 0, 1, 0, 18] ++ List.replicate 32 0x6e ++ [0]) 1 18
    ⟨.tx, 0, "nnnnnnnnnnnnnnnnnnnnnnnnnnnnnnnn"⟩ (by decide)
  have hlabel := hadvertisable.label
  revert hlabel
  decide

end Inferno
