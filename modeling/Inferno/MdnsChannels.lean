import Inferno.ArcServer
import Mathlib.Data.Finset.Image

/-!
# The advertised channels

`DeviceMDNSResponder::add_tx_channel` and `remove_tx_channel` on the services
of the broadcaster, with renaming. A channel is removed by its names, and a
service of the same name goes with it, whichever channel it belongs to: all
channels stay advertised exactly if each that is renamed or announced anew
shares no name with another (`advertised_iff`).

`nameOf` makes the DNS name of a label; two labels may make the same.
-/

namespace Inferno

open BinarySerde

/-- A service of the broadcaster, with what differs between channels. -/
structure ChanService (N : Type) where
  serviceType : String
  name : N
  id : Nat
  isDefault : Bool
  bundle : Option PointerToMulticast
deriving DecidableEq

def chanType : String := "_netaudio-chan"

variable {N : Type} [DecidableEq N]

/-- `BroadcasterHandle::remove_named_service`. -/
def removeNamedService (services : Finset (ChanService N)) (serviceType : String) (name : N) :
    Finset (ChanService N) :=
  services.filter fun service => service.name ≠ name ∨ service.serviceType ≠ serviceType

/-- The server and the services that its device advertises. -/
structure Advertiser (N : Type) where
  server : ArcServer
  services : Finset (ChanService N)

section

variable (nameOf : String → N)

/-- The DNS name of a channel's name. -/
def chanName (s : ArcServer) (chName : String) : N := nameOf (chName ++ "@" ++ s.friendlyHostname)

/-- What `add_tx_channel` does to the services, if the responder is not shut down. -/
def addTxChannel (s : ArcServer) (multicastsByChannel : Nat → Option PointerToMulticast)
    (services : Finset (ChanService N)) (index : Nat) : Finset (ChanService N) :=
  match s.mdnsRunning, s.selfInfo.txChannels[index]? with
  | true, some txch =>
      let service (chName : String) (isDefault : Bool) : ChanService N :=
        ⟨chanType, chanName nameOf s chName, index + 1, isDefault, multicastsByChannel index⟩
      let services := insert (service txch.factoryName true) services
      if txch.factoryName ≠ txch.friendlyName then
        insert (service txch.friendlyName false) services
      else services
  | _, _ => services

/-- What `remove_tx_channel` does to them, likewise. -/
def removeTxChannel (s : ArcServer) (services : Finset (ChanService N)) (index : Nat) :
    Finset (ChanService N) :=
  match s.mdnsRunning, s.selfInfo.txChannels[index]? with
  | true, some txch =>
      let services := removeNamedService services chanType (chanName nameOf s txch.factoryName)
      if txch.factoryName ≠ txch.friendlyName then
        removeNamedService services chanType (chanName nameOf s txch.friendlyName)
      else services
  | _, _ => services

/-- What is done to a channel: an item of a request to rename, or the channel is
announced anew with the bundle it is in. -/
inductive ChannelOp where
  | renameItem (content : List Byte) (item : ArcServer.RenameTxRequest)
  | refresh (index : Nat)

variable (named : String → Bool)

/-- One complete operation; `none` is a panic. What bundle the channel is in is
from the other tasks. -/
def channelStep (a : Advertiser N)
    (op : ChannelOp × (Nat → Option PointerToMulticast)) : Option (Advertiser N × Option Nat) :=
  match op.1 with
  | .renameItem content item => do
      let (server, renamed) ← ArcServer.renameTxItem named content a.server item
      match renamed with
      | none => return (⟨server, a.services⟩, none)
      | some index =>
          return (⟨server, addTxChannel nameOf server op.2
            (removeTxChannel nameOf a.server a.services index) index⟩, some index)
  | .refresh index => do
      a.server.removeTxChannel named index
      a.server.addTxChannel named index
      return (⟨a.server, addTxChannel nameOf a.server op.2
        (removeTxChannel nameOf a.server a.services index) index⟩, some index)

end

/-! ## What is advertised -/

section

variable {nameOf : String → N}

/-- A channel's service is there under a name. -/
def Listed (services : Finset (ChanService N)) (index : Nat) (name : N) : Prop :=
  ∃ service ∈ services, service.serviceType = chanType ∧ service.name = name ∧
    service.id = index + 1

/-- Every channel is listed under its friendly name and its factory name. -/
structure Advertised (nameOf : String → N) (a : Advertiser N) : Prop where
  running : a.server.mdnsRunning = true
  friendly : ∀ (index : Nat) ch, a.server.selfInfo.txChannels[index]? = some ch →
    Listed a.services index (chanName nameOf a.server ch.friendlyName)
  factory : ∀ (index : Nat) ch, a.server.selfInfo.txChannels[index]? = some ch →
    Listed a.services index (chanName nameOf a.server ch.factoryName)

/-- No other channel has one of the names of this one. -/
def OwnNames (nameOf : String → N) (s : ArcServer) (index : Nat) : Prop :=
  ∀ ch, s.selfInfo.txChannels[index]? = some ch → ∀ (j : Nat) other, j ≠ index →
    s.selfInfo.txChannels[j]? = some other →
      ∀ name ∈ [chanName nameOf s other.friendlyName, chanName nameOf s other.factoryName],
        name ≠ chanName nameOf s ch.friendlyName ∧ name ≠ chanName nameOf s ch.factoryName

theorem mem_removeTxChannel {s : ArcServer} {services : Finset (ChanService N)} {index : Nat}
    {ch : ArcChannel} (hrunning : s.mdnsRunning = true)
    (hch : s.selfInfo.txChannels[index]? = some ch) {service : ChanService N}
    (htype : service.serviceType = chanType) :
    service ∈ removeTxChannel nameOf s services index ↔ service ∈ services ∧
      service.name ≠ chanName nameOf s ch.friendlyName ∧
      service.name ≠ chanName nameOf s ch.factoryName := by
  have hremove : ∀ (services : Finset (ChanService N)) name,
      service ∈ removeNamedService services chanType name ↔
        service ∈ services ∧ service.name ≠ name := by
    intro services name
    rw [removeNamedService, Finset.mem_filter]
    exact and_congr_right fun _ => or_iff_left (not_not_intro htype)
  unfold removeTxChannel
  rw [hrunning, hch]
  dsimp only
  split
  next hne => rw [hremove, hremove, and_assoc, and_comm (a := service.name ≠ _)]
  next heq => rw [hremove, not_not.mp heq, and_self]

theorem mem_addTxChannel {s : ArcServer} {services : Finset (ChanService N)} {index : Nat}
    {ch : ArcChannel} (hrunning : s.mdnsRunning = true)
    (hch : s.selfInfo.txChannels[index]? = some ch)
    (bundles : Nat → Option PointerToMulticast) (service : ChanService N) :
    service ∈ addTxChannel nameOf s bundles services index ↔ service ∈ services ∨
      service = ⟨chanType, chanName nameOf s ch.factoryName, index + 1, true, bundles index⟩ ∨
      ch.factoryName ≠ ch.friendlyName ∧ service =
        ⟨chanType, chanName nameOf s ch.friendlyName, index + 1, false, bundles index⟩ := by
  unfold addTxChannel
  rw [hrunning, hch]
  dsimp only
  split
  next hne =>
    rw [Finset.mem_insert, Finset.mem_insert, and_iff_right hne]
    tauto
  next heq =>
    rw [Finset.mem_insert]
    tauto

/-- What an operation leaves of the names: only the channel's friendly name may
be another. -/
structure RenamedAt (s s' : ArcServer) (index : Nat) : Prop where
  running : s'.mdnsRunning = s.mdnsRunning
  hostname : s'.friendlyHostname = s.friendlyHostname
  others : ∀ j, j ≠ index → s'.selfInfo.txChannels[j]? = s.selfInfo.txChannels[j]?
  factory : (s'.selfInfo.txChannels[index]?).map ArcChannel.factoryName =
    (s.selfInfo.txChannels[index]?).map ArcChannel.factoryName

variable {s s' : ArcServer} {services : Finset (ChanService N)} {index : Nat}

/-- Another channel is still listed under a name unless the name was removed. -/
theorem listed_other_iff {ch ch' : ArcChannel} (hrunning : s.mdnsRunning = true)
    (hrunning' : s'.mdnsRunning = true) (hch : s.selfInfo.txChannels[index]? = some ch)
    (hch' : s'.selfInfo.txChannels[index]? = some ch') {j : Nat} (hj : j ≠ index) {name : N}
    (hlisted : Listed services j name) (bundles : Nat → Option PointerToMulticast) :
    Listed (addTxChannel nameOf s' bundles (removeTxChannel nameOf s services index) index) j name ↔
      name ≠ chanName nameOf s ch.friendlyName ∧ name ≠ chanName nameOf s ch.factoryName := by
  constructor
  · rintro ⟨service, hmem, htype, rfl, hid⟩
    rcases (mem_addTxChannel hrunning' hch' bundles service).mp hmem with hold | rfl | ⟨_, rfl⟩
    · exact ((mem_removeTxChannel hrunning hch htype).mp hold).2
    · exact absurd (Nat.succ.inj hid).symm hj
    · exact absurd (Nat.succ.inj hid).symm hj
  · intro hname
    obtain ⟨service, hmem, htype, rfl, hid⟩ := hlisted
    refine ⟨service, (mem_addTxChannel hrunning' hch' bundles service).mpr (.inl ?_), htype, rfl,
      hid⟩
    exact (mem_removeTxChannel hrunning hch htype).mpr ⟨hmem, hname⟩

/-- Removing a channel by its old names and adding it by its new ones keeps all
channels listed exactly if the old names are its own. -/
theorem readvertised_iff (h : Advertised nameOf ⟨s, services⟩) (hs : RenamedAt s s' index)
    (hlt : index < s.selfInfo.txChannels.length) (bundles : Nat → Option PointerToMulticast) :
    Advertised nameOf ⟨s', addTxChannel nameOf s' bundles
      (removeTxChannel nameOf s services index) index⟩ ↔ OwnNames nameOf s index := by
  have hrunning' : s'.mdnsRunning = true := hs.running.trans h.running
  have hname : ∀ name, chanName nameOf s' name = chanName nameOf s name := by
    intro name
    rw [chanName, chanName, hs.hostname]
  obtain ⟨ch, hch⟩ : ∃ ch, s.selfInfo.txChannels[index]? = some ch :=
    ⟨_, List.getElem?_eq_getElem hlt⟩
  obtain ⟨ch', hch'⟩ : ∃ ch', s'.selfInfo.txChannels[index]? = some ch' := by
    have hfactory := hs.factory
    rw [hch] at hfactory
    obtain ⟨ch', hch', _⟩ := Option.map_eq_some_iff.mp hfactory
    exact ⟨ch', hch'⟩
  constructor
  · intro hafter ch₁ hch₁ j other hj hother name hmem
    rw [hch] at hch₁
    cases hch₁
    have hother' : s'.selfInfo.txChannels[j]? = some other := by rw [hs.others j hj, hother]
    have hfriendly := hafter.friendly j other hother'
    have hfactory := hafter.factory j other hother'
    dsimp only at hfriendly hfactory
    rw [hname] at hfriendly hfactory
    rcases List.mem_cons.mp hmem with rfl | hmem
    · exact (listed_other_iff h.running hrunning' hch hch' hj (h.friendly j other hother)
        bundles).mp hfriendly
    · rw [List.mem_singleton.mp hmem]
      exact (listed_other_iff h.running hrunning' hch hch' hj (h.factory j other hother)
        bundles).mp hfactory
  · intro hown
    have hlisted : ∀ j other, s'.selfInfo.txChannels[j]? = some other →
        ∀ n, n = other.friendlyName ∨ n = other.factoryName →
          Listed (addTxChannel nameOf s' bundles (removeTxChannel nameOf s services index) index) j
            (chanName nameOf s' n) := by
      intro j other hother n hn
      by_cases hj : j = index
      · subst hj
        rw [hch'] at hother
        cases hother
        by_cases hfactory : n = ch'.factoryName
        · rw [hfactory]
          exact ⟨_, (mem_addTxChannel hrunning' hch' bundles _).mpr (.inr (.inl rfl)), rfl, rfl, rfl⟩
        · have hfriendly := hn.resolve_right hfactory
          rw [hfriendly] at hfactory ⊢
          exact ⟨_, (mem_addTxChannel hrunning' hch' bundles _).mpr
            (.inr (.inr ⟨fun heq => hfactory heq.symm, rfl⟩)), rfl, rfl, rfl⟩
      · rw [hs.others j hj] at hother
        have hnames := hown ch hch j other hj hother
        rw [hname]
        rcases hn with rfl | rfl
        · exact (listed_other_iff h.running hrunning' hch hch' hj (h.friendly j other hother)
            bundles).mpr (hnames _ List.mem_cons_self)
        · exact (listed_other_iff h.running hrunning' hch hch' hj (h.factory j other hother)
            bundles).mpr (hnames _ (List.mem_cons_of_mem _ List.mem_cons_self))
    exact ⟨hrunning', fun j other hother => hlisted j other hother _ (.inl rfl),
      fun j other hother => hlisted j other hother _ (.inr rfl)⟩

/-! ## Runs -/

/-- The channel that an item gives a name to. -/
def renamedIndex (channels : Nat) (content : List Byte) (item : ArcServer.RenameTxRequest) :
    Option Nat :=
  let nameOffset := item.newNameOffset.toNat - HEADER_LENGTH
  let index := item.channelId.toNat - 1
  if item.channelId = 0 ∨ nameOffset = 0 then none
  else
    match read0termStrFromBuffer content nameOffset with
    | some (some _) => if index < channels then some index else none
    | _ => none

/-- The channel that an operation is about. -/
def ChannelOp.channel (s : ArcServer) : ChannelOp → Option Nat
  | .renameItem content item => renamedIndex s.selfInfo.txChannels.length content item
  | .refresh index => some index

/-- The channel an operation is about shares no name with another. -/
def Unshared (nameOf : String → N) (a : Advertiser N)
    (op : ChannelOp × (Nat → Option PointerToMulticast)) : Prop :=
  ∀ index, op.1.channel a.server = some index → OwnNames nameOf a.server index

theorem renameTx_renamedAt {named : String → Bool} {index : Nat} {name : String}
    (hrun : s.renameTx named index name = some s') :
    RenamedAt s s' index ∧ index < s.selfInfo.txChannels.length := by
  obtain ⟨_, _, hrun⟩ := Option.bind_eq_some_iff.mp hrun
  obtain ⟨s₁, hrename, hrun⟩ := Option.bind_eq_some_iff.mp hrun
  obtain ⟨_, _, hrun⟩ := Option.bind_eq_some_iff.mp hrun
  cases hrun
  obtain ⟨⟨saved, channels⟩, hchannel, hrename⟩ := Option.bind_eq_some_iff.mp hrename
  cases hrename
  unfold ArcServer.renameChannel at hchannel
  split at hchannel
  next hlt =>
    cases hchannel
    refine ⟨⟨rfl, rfl, fun j hj => List.getElem?_modify_ne _ _ hj.symm, ?_⟩, hlt.2⟩
    dsimp only
    rw [List.getElem?_modify_eq, Option.map_eq_map, Option.map_map]
    rfl
  · cases hchannel

/-- An item renames the channel it names, or does nothing. -/
theorem renameTxItem_renamedAt {named : String → Bool} {content : List Byte}
    {item : ArcServer.RenameTxRequest} {r : Option Nat}
    (hrun : ArcServer.renameTxItem named content s item = some (s', r)) :
    r = renamedIndex s.selfInfo.txChannels.length content item ∧ (r = none → s' = s) ∧
      ∀ index, r = some index → RenamedAt s s' index ∧ index < s.selfInfo.txChannels.length := by
  unfold ArcServer.renameTxItem ArcServer.renameItem at hrun
  unfold renamedIndex
  dsimp only at hrun ⊢
  split at hrun
  next hskip =>
    cases hrun
    rw [if_pos hskip]
    exact ⟨rfl, fun _ => rfl, fun index h => (by cases h)⟩
  next hitem =>
    rw [if_neg hitem]
    cases hread : read0termStrFromBuffer content (item.newNameOffset.toNat - HEADER_LENGTH) with
    | none =>
        rw [hread] at hrun
        cases hrun
    | some name =>
        rw [hread] at hrun
        cases name with
        | none =>
            cases hrun
            exact ⟨rfl, fun _ => rfl, fun index h => (by cases h)⟩
        | some name =>
            dsimp only at hrun ⊢
            split at hrun
            next hlt =>
              obtain ⟨s₁, hrename, heq⟩ := Option.map_eq_some_iff.mp hrun
              cases heq
              rw [if_pos hlt]
              refine ⟨rfl, fun h => (by cases h), fun index h => ?_⟩
              cases h
              exact renameTx_renamedAt hrename
            next hge =>
              cases hrun
              rw [if_neg hge]
              exact ⟨rfl, fun _ => rfl, fun index h => (by cases h)⟩

theorem channelStep_iff {named : String → Bool} {a a' : Advertiser N}
    {op : ChannelOp × (Nat → Option PointerToMulticast)} {r : Option Nat}
    (h : Advertised nameOf a) (hrun : channelStep nameOf named a op = some (a', r)) :
    Advertised nameOf a' ↔ Unshared nameOf a op := by
  obtain ⟨op, bundles⟩ := op
  unfold Unshared
  cases op with
  | renameItem content item =>
      obtain ⟨⟨s', renamed⟩, hitem, hrun⟩ := Option.bind_eq_some_iff.mp hrun
      obtain ⟨hindex, hsame, hrenamed⟩ := renameTxItem_renamedAt hitem
      have hchannel : (ChannelOp.renameItem content item).channel a.server = renamed := hindex.symm
      rw [hchannel]
      cases renamed with
      | none =>
          cases hrun
          have hs : s' = a.server := hsame rfl
          subst hs
          exact iff_of_true h fun index hi => (by cases hi)
      | some index =>
          cases hrun
          obtain ⟨hat, hlt⟩ := hrenamed index rfl
          rw [readvertised_iff h hat hlt]
          exact ⟨fun hown i hi => by cases hi; exact hown, fun hown => hown index rfl⟩
  | refresh index =>
      obtain ⟨_, hremove, hrun⟩ := Option.bind_eq_some_iff.mp hrun
      obtain ⟨_, _, hrun⟩ := Option.bind_eq_some_iff.mp hrun
      cases hrun
      have hlt : index < a.server.selfInfo.txChannels.length := by
        obtain ⟨txch, htxch, _⟩ := Option.bind_eq_some_iff.mp hremove
        exact (List.getElem?_eq_some_iff.mp htxch).1
      rw [readvertised_iff h ⟨rfl, rfl, fun _ _ => rfl, rfl⟩ hlt]
      exact ⟨fun hown i hi => by cases hi; exact hown, fun hown => hown index rfl⟩

/-- A request to rename is its items, one after the other. -/
theorem renameTxItems_ops (nameOf : String → N) {named : String → Bool} {content : List Byte}
    (bundles : Nat → Option PointerToMulticast) {items : List ArcServer.RenameTxRequest}
    {renamed : List (Option Nat)} (services : Finset (ChanService N))
    (hrun : Serve.items (ArcServer.renameTxItem named content) s items = some (s', renamed)) :
    ∃ services', Serve.items (channelStep nameOf named) ⟨s, services⟩
      (items.map fun item => (.renameItem content item, bundles)) =
        some (⟨s', services'⟩, renamed) := by
  induction items generalizing s services renamed with
  | nil =>
      cases hrun
      exact ⟨services, rfl⟩
  | cons item items ih =>
      obtain ⟨⟨s₁, r⟩, h₁, hrun⟩ := Option.bind_eq_some_iff.mp hrun
      obtain ⟨⟨s₂, rs⟩, h₂, hrun⟩ := Option.bind_eq_some_iff.mp hrun
      cases hrun
      obtain ⟨services₁, hstep⟩ : ∃ services₁, channelStep nameOf named ⟨s, services⟩
          (.renameItem content item, bundles) = some (⟨s₁, services₁⟩, r) := by
        unfold channelStep
        dsimp only
        rw [h₁]
        cases r with
        | none => exact ⟨_, rfl⟩
        | some index => exact ⟨_, rfl⟩
      obtain ⟨services', hrest⟩ := ih services₁ h₂
      refine ⟨services', ?_⟩
      simp only [List.map_cons, Serve.items, hstep, hrest, Option.bind_eq_bind, Option.bind_some,
        Option.pure_def]

/-- Starting with all channels advertised, they all are after every operation
exactly if no operation is about a channel that shares a name with another. -/
theorem advertised_iff (nameOf : String → N) (named : String → Bool) {a : Advertiser N}
    (h : Advertised nameOf a) (ops : List (ChannelOp × (Nat → Option PointerToMulticast))) :
    Serve.Along (channelStep nameOf named) (fun _ _ a' => Advertised nameOf a') a ops ↔
      Serve.Along (channelStep nameOf named) (fun a op _ => Unshared nameOf a op) a ops :=
  Serve.along_iff (fun _ _ _ _ h hrun => channelStep_iff h hrun) h

end

/-- Two channels, named as they came from the factory. -/
def twoSenders : Advertiser String where
  server := .start ⟨⟨0, 0, [], [⟨"a", "a"⟩, ⟨"b", "b"⟩], 24, 0, 48000⟩, "h", "", "", [], []⟩
  services := {⟨chanType, "a@h", 1, true, none⟩, ⟨chanType, "b@h", 2, true, none⟩}

theorem twoSenders_advertised : Advertised id twoSenders := by
  have hlisted : ∀ (index : Nat) ch, twoSenders.server.selfInfo.txChannels[index]? = some ch →
      ch.friendlyName = ch.factoryName ∧
        Listed twoSenders.services index (chanName id twoSenders.server ch.factoryName) := by
    intro index ch hch
    match index, hch with
    | 0, hch => cases hch; exact ⟨rfl, ⟨chanType, "a@h", 1, true, none⟩, by decide, rfl, rfl, rfl⟩
    | 1, hch => cases hch; exact ⟨rfl, ⟨chanType, "b@h", 2, true, none⟩, by decide, rfl, rfl, rfl⟩
    | n + 2, hch => cases hch
  refine ⟨rfl, fun index ch hch => ?_, fun index ch hch => (hlisted index ch hch).2⟩
  obtain ⟨heq, hl⟩ := hlisted index ch hch
  rwa [heq]

/-- The first channel is to be called as the second one is. -/
def renameToOther : ChannelOp × (Nat → Option PointerToMulticast) :=
  (.renameItem [0, 1, 0, 0, 0, 1, 0, 18, 0x62, 0] ⟨0, 1, 18⟩, fun _ => none)

theorem advertised_twoSenders :
    Serve.Along (channelStep id fun _ => true) (fun _ _ a' => Advertised id a') twoSenders
        [renameToOther] ↔
      Serve.Along (channelStep id fun _ => true) (fun a op _ => Unshared id a op) twoSenders
        [renameToOther] :=
  advertised_iff id _ twoSenders_advertised _

/-- When the first channel is announced anew after that, the second one's service
goes. -/
theorem refresh_hides_other :
    ¬ Serve.Along (channelStep id fun _ => true) (fun _ _ a' => Advertised id a') twoSenders
      [renameToOther, (.refresh 0, fun _ => none)] := by
  intro h
  obtain ⟨_, h⟩ := h _ _ rfl
  obtain ⟨hafter, _⟩ := h _ _ rfl
  obtain ⟨service, hmem, _, _, hid⟩ := hafter.factory 1 ⟨"b", "b"⟩ rfl
  revert hid
  revert service
  decide

end Inferno
