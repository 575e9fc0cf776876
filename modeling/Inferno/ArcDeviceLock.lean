import Inferno.ArcServerSafety

/-!
# The device lock

With `DEVICE_LOCKED` the server rejects renaming and creating multicast flows.
Subscribing, removing a subscription and deleting a multicast flow are not
rejected: what is configured stays as it is exactly if no request does any of
these (`locked_config_iff`).
-/

namespace Inferno

open BinarySerde

namespace ArcServer

/-- `handle`, with what `DEVICE_LOCKED` says. -/
def handleLocking (locked : Bool) (named : String → Bool) (s : ArcServer) (request : List Byte)
    (draw : Nat → MulticastDraw) : Option ArcOutcome :=
  if u16At request 8 ≠ 0 then some ⟨s, [], none⟩
  else
    match ArcOpcode.ofCode (u16At request 6) with
    | .renameTxChannels | .renameRxChannels | .createMulticastTxFlow =>
        if locked then some (s.answer request 0 []) else s.handle named request draw
    | _ => s.handle named request draw

theorem handleLocking_unlocked (named : String → Bool) (s : ArcServer) (request : List Byte)
    (draw : Nat → MulticastDraw) :
    s.handleLocking false named request draw = s.handle named request draw := by
  unfold handleLocking
  split
  next hrequest => rw [handle, if_pos hrequest]
  · split <;> rfl

/-- A request to a locked device, with what it draws. -/
def lockedStep (named : String → Bool) (s : ArcServer)
    (request : List Byte × (Nat → MulticastDraw)) : Option (ArcServer × List ArcCall) :=
  if request.1.length < HEADER_LENGTH then some (s, [])
  else (s.handleLocking true named request.1 request.2).map fun o => (o.server, o.calls)

/-! ## What is configured -/

end ArcServer

/-- A command to the subscriber. -/
def ArcCall.Subscription : ArcCall → Prop
  | .subscribe _ _ _ | .unsubscribe _ => True
  | .addFlow _ _ | .removeFlow _ | .notify _ | .restart => False

namespace ArcServer

structure SameConfig (s s' : ArcServer) : Prop where
  rxChannels : s'.selfInfo.rxChannels = s.selfInfo.rxChannels
  txChannels : s'.selfInfo.txChannels = s.selfInfo.txChannels
  subscriptions : s'.subscriber.map ListedSubscriber.subscriptionsInfo =
    s.subscriber.map ListedSubscriber.subscriptionsInfo
  bundles : s'.multicasts.bundles = s.multicasts.bundles

/-- An item subscribes or unsubscribes a channel. -/
def Subscribes (rxChannels : Nat) (content : List Byte) (req : SubscriptionRequest) : Prop :=
  req.localChannelId ≠ 0 ∧ req.localChannelId.toNat ≤ rxChannels ∧
    (0 < req.txChannelNameOffset.toNat → 0 < req.txHostnameOffset.toNat →
      ∃ name host, strOrNone content req.txChannelNameOffset = some (some name) ∧
        strOrNone content req.txHostnameOffset = some (some host))

/-- What a request has to be for a locked device to stay as it is: no item
subscribes, no channel is unsubscribed, no bundle that is there is deleted. -/
def OpcodeInert (s : ArcServer) (content : List Byte) : ArcOpcode → Prop
  | .setChannelsSubscriptions => s.subscriber.isSome →
      ∀ req ∈ requestItems SubscriptionRequest content,
        ¬ Subscribes s.selfInfo.rxChannels.length content req
  | .code3014 => s.subscriber = none
  | .deleteMulticastTxFlow => s.multicasts.published = true →
      ∀ i ∈ deletedIndices content, ∀ bundle, s.multicasts.bundles[i]? ≠ some (some bundle)
  | _ => True

def Inert (s : ArcServer) (request : List Byte × (Nat → MulticastDraw)) : Prop :=
  HEADER_LENGTH ≤ request.1.length → u16At request.1 8 = 0 →
    s.OpcodeInert (request.1.drop HEADER_LENGTH) (ArcOpcode.ofCode (u16At request.1 6))

end ArcServer

/-! ## Bundles only go -/

/-- Some of the bundles. -/
def BundlesLeft (bundles left : List (Option Bundle)) : Prop :=
  ∀ i : Nat, left[i]? = bundles[i]? ∨ left[i]? = some none

theorem BundlesLeft.refl (bundles : List (Option Bundle)) : BundlesLeft bundles bundles :=
  fun _ => .inl rfl

theorem BundlesLeft.trans {b₁ b₂ b₃ : List (Option Bundle)} (h₁ : BundlesLeft b₁ b₂)
    (h₂ : BundlesLeft b₂ b₃) : BundlesLeft b₁ b₃ := by
  intro i
  rcases h₂ i with heq | hnone
  · rw [heq]
    exact h₁ i
  · exact .inr hnone

theorem BundlesLeft.antisymm {b₁ b₂ : List (Option Bundle)} (h₁ : BundlesLeft b₁ b₂)
    (h₂ : BundlesLeft b₂ b₁) : b₁ = b₂ := by
  refine List.ext_getElem? fun i => ?_
  rcases h₁ i with heq | hnone
  · exact heq.symm
  · rcases h₂ i with heq | hnone'
    · exact heq
    · rw [hnone, hnone']

namespace TransmitMulticasts

/-- Deleting takes a bundle out of its place and touches no other. -/
theorem removeFlowInternal_bundles (dev : MulticastDevice) (w : TransmitMulticasts) (i : Nat)
    (ignoreNonexisting : Bool) :
    (removeFlowInternal dev w i ignoreNonexisting).1.bundles =
      match w.bundles[i]? with
      | some (some _) => w.bundles.set i none
      | _ => w.bundles := by
  unfold removeFlowInternal
  split
  next hb => rw [hb]; rfl
  next hb => rw [hb]
  next bundle hb =>
    rw [hb]
    dsimp only
    split
    · rfl
    next t _ =>
      split
      · unfold removeBundle
        dsimp only
        split
        · rfl
        · split <;> rfl
      · rfl

theorem removeFlowInternal_published (dev : MulticastDevice) (w : TransmitMulticasts) (i : Nat)
    (ignoreNonexisting : Bool) :
    (removeFlowInternal dev w i ignoreNonexisting).1.published = w.published := by
  unfold removeFlowInternal
  split
  · rfl
  · rfl
  next bundle hb =>
    dsimp only
    split
    · rfl
    next t _ =>
      split
      · unfold removeBundle
        dsimp only
        split
        · rfl
        · split <;> rfl
      · rfl

end TransmitMulticasts

namespace ArcServer

variable {named : String → Bool} {s s' : ArcServer}

/-- What deleting a flow does to the bundles. -/
theorem deleteItem_bundles {w w' : TransmitMulticasts} {i : Nat} {b : Option (Nat × Bool)}
    (hrun : s.deleteItem named w i = some (w', b)) :
    w'.published = w.published ∧ w'.bundles =
      if w.published = true then
        match w.bundles[i]? with
        | some (some _) => w.bundles.set i none
        | _ => w.bundles
      else w.bundles := by
  unfold deleteItem at hrun
  split at hrun
  next hpublished =>
    obtain ⟨⟨w₁, deleted⟩, hremove, heq⟩ := Option.map_eq_some_iff.mp hrun
    cases heq
    obtain ⟨w₂, hawaited, hremove⟩ := Option.bind_eq_some_iff.mp hremove
    dsimp only at hremove
    split at hremove
    · cases hremove
      unfold awaited at hawaited
      dsimp only at hawaited
      split at hawaited
      · cases hawaited
      · cases hawaited
        rw [if_pos hpublished]
        exact ⟨TransmitMulticasts.removeFlowInternal_published s.multicastDevice
            { w with panicked := false } i false,
          TransmitMulticasts.removeFlowInternal_bundles s.multicastDevice
            { w with panicked := false } i false⟩
    · cases hremove
  next hhidden =>
    cases hrun
    rw [if_neg hhidden]
    exact ⟨rfl, rfl⟩

theorem deleteItem_left {w w' : TransmitMulticasts} {i : Nat} {b : Option (Nat × Bool)}
    (hrun : s.deleteItem named w i = some (w', b)) : BundlesLeft w.bundles w'.bundles := by
  rw [(deleteItem_bundles hrun).2]
  split
  · split
    next hb =>
      intro j
      by_cases hj : i = j
      · subst hj
        have hlt := (List.getElem?_eq_some_iff.mp hb).1
        exact .inr (by rw [List.getElem?_set_self hlt])
      · exact .inl (List.getElem?_set_ne hj)
    · exact .refl _
  · exact .refl _

/-- Deleting changes the bundles exactly if there is one. -/
theorem deleteItem_same_iff {w w' : TransmitMulticasts} {i : Nat} {b : Option (Nat × Bool)}
    (hrun : s.deleteItem named w i = some (w', b)) : w'.bundles = w.bundles ↔
      (w.published = true → ∀ bundle, w.bundles[i]? ≠ some (some bundle)) := by
  rw [(deleteItem_bundles hrun).2]
  split
  next hpublished =>
    rw [forall_prop_of_true hpublished]
    split
    next bundle hb =>
      refine iff_of_false (fun heq => ?_) fun hf => hf bundle hb
      have hset : (w.bundles.set i none)[i]? = some none :=
        List.getElem?_set_self (List.getElem?_eq_some_iff.mp hb).1
      rw [heq, hb] at hset
      cases hset
    next hnone => exact iff_of_true rfl fun bundle hb => hnone bundle hb
  next hhidden => exact iff_of_true rfl fun hf => absurd hf hhidden

/-- All items of a request to delete. -/
theorem deleteItems_same_iff {w w' : TransmitMulticasts} {indices : List Nat}
    {bs : List (Option (Nat × Bool))}
    (hrun : Serve.items (s.deleteItem named) w indices = some (w', bs)) :
    BundlesLeft w.bundles w'.bundles ∧ (w'.bundles = w.bundles ↔
      (w.published = true → ∀ i ∈ indices, ∀ bundle, w.bundles[i]? ≠ some (some bundle))) := by
  induction indices generalizing w bs with
  | nil =>
      cases hrun
      exact ⟨.refl _, iff_of_true rfl fun _ i hi => by cases hi⟩
  | cons i indices ih =>
      obtain ⟨⟨w₁, b⟩, h₁, hrun⟩ := Option.bind_eq_some_iff.mp hrun
      obtain ⟨⟨w₂, bs₂⟩, h₂, hrun⟩ := Option.bind_eq_some_iff.mp hrun
      cases hrun
      obtain ⟨hleft, hsame⟩ := ih h₂
      have hleft₁ := deleteItem_left h₁
      have hsame₁ := deleteItem_same_iff h₁
      have hpublished := (deleteItem_bundles h₁).1
      refine ⟨hleft₁.trans hleft, ?_⟩
      constructor
      · intro heq hp
        have hw₁ : w₁.bundles = w.bundles := by
          rw [heq] at hleft
          exact hleft.antisymm hleft₁
        rw [hpublished, hw₁] at hsame
        exact List.forall_mem_cons.mpr ⟨hsame₁.mp hw₁ hp, hsame.mp heq hp⟩
      · intro h
        have hw₁ := hsame₁.mpr fun hp => (List.forall_mem_cons.mp (h hp)).1
        rw [hpublished, hw₁] at hsame
        exact hsame.mpr fun hp => (List.forall_mem_cons.mp (h hp)).2

/-! ## Subscriptions -/

/-- An item makes a command exactly if it subscribes or unsubscribes, and only
then changes what is shown. -/
theorem subscriptionItem_call_iff {n : Nat} {content : List Byte} {sub sub' : ListedSubscriber}
    {req : SubscriptionRequest} {call : Option ArcCall}
    (hrun : subscriptionItem n content sub req = some (sub', call)) :
    (call = none ↔ ¬ Subscribes n content req) ∧ (call = none → sub' = sub) ∧
      ∀ c, call = some c → c.Subscription := by
  unfold subscriptionItem at hrun
  unfold Subscribes
  dsimp only at hrun
  split at hrun
  next hzero =>
    cases hrun
    exact ⟨iff_of_true rfl fun h => h.1 hzero, fun _ => rfl, fun c hc => by cases hc⟩
  next hid =>
  have hpos := toNat_pos_of_ne_zero hid
  split at hrun
  next hrange =>
    cases hrun
    exact ⟨iff_of_true rfl fun h => by omega, fun _ => rfl, fun c hc => by cases hc⟩
  next hrange =>
  have hle : req.localChannelId.toNat ≤ n := by omega
  split at hrun
  next hoffsets =>
    obtain ⟨name, hname, hrun⟩ := Option.bind_eq_some_iff.mp hrun
    obtain ⟨host, hhost, hrun⟩ := Option.bind_eq_some_iff.mp hrun
    cases name with
    | none =>
        cases hrun
        refine ⟨iff_of_true rfl fun h => ?_, fun _ => rfl, fun c hc => (by cases hc)⟩
        obtain ⟨name', _, hname', _⟩ := h.2.2 hoffsets.1 hoffsets.2
        rw [hname] at hname'
        cases hname'
    | some name =>
        cases host with
        | none =>
            cases hrun
            refine ⟨iff_of_true rfl fun h => ?_, fun _ => rfl, fun c hc => (by cases hc)⟩
            obtain ⟨_, host', _, hhost'⟩ := h.2.2 hoffsets.1 hoffsets.2
            rw [hhost] at hhost'
            cases hhost'
        | some host =>
            obtain ⟨sub₁, hsub, hrun⟩ := Option.bind_eq_some_iff.mp hrun
            cases hrun
            refine ⟨iff_of_false (fun h => (by cases h)) (not_not_intro ⟨hid, hle, fun _ _ =>
              ⟨name, host, hname, hhost⟩⟩), fun h => (by cases h), fun c hc => ?_⟩
            cases hc
            trivial
  next hoffsets =>
    cases hrun
    refine ⟨iff_of_false (fun h => by cases h) (not_not_intro ⟨hid, hle, fun h₁ h₂ =>
      absurd ⟨h₁, h₂⟩ hoffsets⟩), fun h => (by cases h), fun c hc => ?_⟩
    cases hc
    trivial

/-- All items of a request to subscribe. -/
theorem subscriptionItems_calls_iff {n : Nat} {content : List Byte} {sub sub' : ListedSubscriber}
    {reqs : List SubscriptionRequest} {calls : List (Option ArcCall)}
    (hrun : Serve.items (subscriptionItem n content) sub reqs = some (sub', calls)) :
    (calls.filterMap id = [] ↔ ∀ req ∈ reqs, ¬ Subscribes n content req) ∧
      (calls.filterMap id = [] → sub' = sub) ∧ ∀ c ∈ calls.filterMap id, c.Subscription := by
  induction reqs generalizing sub calls with
  | nil =>
      cases hrun
      exact ⟨iff_of_true rfl fun _ h => (by cases h), fun _ => rfl, fun _ h => by cases h⟩
  | cons req reqs ih =>
      obtain ⟨⟨sub₁, call⟩, h₁, hrun⟩ := Option.bind_eq_some_iff.mp hrun
      obtain ⟨⟨sub₂, calls₂⟩, h₂, hrun⟩ := Option.bind_eq_some_iff.mp hrun
      cases hrun
      obtain ⟨hiff, hsame, hsub⟩ := subscriptionItem_call_iff h₁
      obtain ⟨hiffs, hsames, hsubs⟩ := ih h₂
      rw [List.forall_mem_cons]
      cases call with
      | none =>
          rw [and_iff_right (hiff.mp rfl)]
          exact ⟨hiffs, fun hcalls => (hsames hcalls).trans (hsame rfl), hsubs⟩
      | some c =>
          have hreq : ¬ ¬ Subscribes n content req := fun h => by cases hiff.mpr h
          have hcons : (some c :: calls₂).filterMap id = c :: calls₂.filterMap id := rfl
          rw [hcons]
          refine ⟨iff_of_false (fun h => by cases h) fun h => hreq h.1, fun h => (by cases h), ?_⟩
          exact List.forall_mem_cons.mpr ⟨hsub c rfl, hsubs⟩

/-! ## One request -/

/-- What a request to a locked device does: names stay, bundles only go, and all
stays exactly if the request is inert. -/
structure LockedOutcome (s s' : ArcServer) (calls : List ArcCall) (inert : Prop) : Prop where
  rxChannels : s'.selfInfo.rxChannels = s.selfInfo.rxChannels
  txChannels : s'.selfInfo.txChannels = s.selfInfo.txChannels
  left : BundlesLeft s.multicasts.bundles s'.multicasts.bundles
  inert_iff : (s'.multicasts.bundles = s.multicasts.bundles ∧ ∀ c ∈ calls, ¬ c.Subscription) ↔
    inert
  subscriptions : (∀ c ∈ calls, ¬ c.Subscription) →
    s'.subscriber.map ListedSubscriber.subscriptionsInfo =
      s.subscriber.map ListedSubscriber.subscriptionsInfo

/-- An answer that changes nothing. -/
theorem lockedOutcome_same {calls : List ArcCall} {inert : Prop} (hinert : inert)
    (hcalls : ∀ c ∈ calls, ¬ c.Subscription) : LockedOutcome s s calls inert :=
  ⟨rfl, rfl, .refl _, iff_of_true ⟨rfl, hcalls⟩ hinert, fun _ => rfl⟩

theorem lockedOutcome_answer {inert : Prop} (hinert : inert) (request : List Byte)
    (code : BitVec 16) (content : List Byte) :
    LockedOutcome s (s.answer request code content).server
      (s.answer request code content).calls inert :=
  lockedOutcome_same hinert fun _ hc => by cases hc

theorem lockedOutcome_answers {content : Option (List Byte)} {request : List Byte}
    {code : BitVec 16} {o : ArcOutcome} {inert : Prop} (hinert : inert)
    (hrun : content.map (s.answer request code) = some o) :
    LockedOutcome s o.server o.calls inert := by
  obtain ⟨c, _, rfl⟩ := Option.map_eq_some_iff.mp hrun
  exact lockedOutcome_answer hinert request code c

theorem lockedOutcome_list {request : List Byte}
    {listing : List Byte → Option (BitVec 16 × List Byte)} {o : ArcOutcome} {inert : Prop}
    (hinert : inert) (hrun : s.list request listing = some o) :
    LockedOutcome s o.server o.calls inert := by
  obtain ⟨⟨code, response⟩, _, hrun⟩ := Option.bind_eq_some_iff.mp hrun
  cases hrun
  exact lockedOutcome_answer hinert request code response

theorem lockedOutcome_subscriptions {request : List Byte} {o : ArcOutcome}
    (hrun : s.setChannelsSubscriptions request = some o) :
    LockedOutcome s o.server o.calls
      (s.OpcodeInert (request.drop HEADER_LENGTH) .setChannelsSubscriptions) := by
  unfold setChannelsSubscriptions at hrun
  unfold OpcodeInert
  cases hsub : s.subscriber with
  | none =>
      rw [hsub] at hrun
      cases hrun
      exact lockedOutcome_same (fun h => absurd h Bool.false_ne_true) fun _ hc => by cases hc
  | some sub =>
      rw [hsub] at hrun
      obtain ⟨reqs, hreqs, hrun⟩ := Option.bind_eq_some_iff.mp hrun
      obtain ⟨⟨sub', calls⟩, hitems, hrun⟩ := Option.bind_eq_some_iff.mp hrun
      cases hrun
      obtain ⟨hiff, hsame, hsubs⟩ := subscriptionItems_calls_iff hitems
      have hitem : requestItems SubscriptionRequest (request.drop HEADER_LENGTH) = reqs := by
        rw [requestItems, hreqs]
        rfl
      have hnone : (∀ c ∈ calls.filterMap id, ¬ c.Subscription) ↔ calls.filterMap id = [] := by
        refine ⟨fun h => List.eq_nil_iff_forall_not_mem.mpr fun c hc => h c hc (hsubs c hc),
          fun h => ?_⟩
        rw [h]
        exact fun _ hc => by cases hc
      refine ⟨rfl, rfl, .refl _, ?_, fun hcalls => ?_⟩
      · rw [Option.isSome_some, forall_prop_of_true rfl, hitem, ← hiff, ← hnone]
        exact and_iff_right rfl
      · rw [hsub, hsame (hnone.mp hcalls)]

theorem lockedOutcome_removal {request : List Byte} {o : ArcOutcome}
    (hrun : s.removeSubscription request = some o) :
    LockedOutcome s o.server o.calls (s.subscriber = none) := by
  unfold removeSubscription at hrun
  cases hsub : s.subscriber with
  | none =>
      rw [hsub] at hrun
      cases hrun
      exact lockedOutcome_same rfl fun _ hc => by cases hc
  | some sub =>
      rw [hsub] at hrun
      dsimp only at hrun
      split at hrun
      · cases hrun
      · split at hrun
        · cases hrun
        · cases hrun
          refine ⟨rfl, rfl, .refl _, iff_of_false (fun h => ?_) fun h => (by cases h),
            fun _ => rfl⟩
          exact h.2 _ List.mem_cons_self trivial

theorem lockedOutcome_delete {request : List Byte} {o : ArcOutcome}
    (hrun : s.deleteMulticastTxFlow named request = some o) :
    LockedOutcome s o.server o.calls
      (s.OpcodeInert (request.drop HEADER_LENGTH) .deleteMulticastTxFlow) := by
  unfold deleteMulticastTxFlow at hrun
  dsimp only at hrun
  split at hrun
  · cases hrun
  obtain ⟨⟨w, deleted⟩, hitems, hrun⟩ := Option.bind_eq_some_iff.mp hrun
  cases hrun
  obtain ⟨hleft, hsame⟩ := deleteItems_same_iff hitems
  refine ⟨rfl, rfl, hleft, Iff.trans (and_iff_left fun c hc => ?_) hsame, fun _ => rfl⟩
  obtain ⟨d, _, rfl⟩ := List.mem_map.mp hc
  exact id

theorem lockedStep_outcome {request : List Byte × (Nat → MulticastDraw)} {calls : List ArcCall}
    (hrun : s.lockedStep named request = some (s', calls)) :
    LockedOutcome s s' calls (s.Inert request) := by
  obtain ⟨request, draw⟩ := request
  unfold lockedStep at hrun
  unfold Inert
  dsimp only at hrun ⊢
  split at hrun
  next hshort =>
    cases hrun
    exact lockedOutcome_same (fun h => absurd hshort (Nat.not_lt.mpr h)) fun _ hc => by cases hc
  next hlong =>
  rw [forall_prop_of_true (Nat.not_lt.mp hlong)]
  obtain ⟨o, ho, heq⟩ := Option.map_eq_some_iff.mp hrun
  cases heq
  unfold handleLocking at ho
  by_cases hrequest : u16At request 8 = 0
  · rw [if_neg (not_not_intro hrequest)] at ho
    rw [forall_prop_of_true hrequest]
    unfold handle at ho
    rw [if_neg (not_not_intro hrequest)] at ho
    cases hcode : ArcOpcode.ofCode (u16At request 6) with
    | channelsAndFlowsCount => rw [hcode] at ho; exact lockedOutcome_answers trivial ho
    | getDeviceNames => rw [hcode] at ho; exact lockedOutcome_answers trivial ho
    | getReceiveChannels => rw [hcode] at ho; exact lockedOutcome_list trivial ho
    | getTransmitChannels => rw [hcode] at ho; exact lockedOutcome_list trivial ho
    | getTransmitChannelsFriendlyNames => rw [hcode] at ho; exact lockedOutcome_list trivial ho
    | queryTxFlows => rw [hcode] at ho; exact lockedOutcome_list trivial ho
    | queryRxFlows => rw [hcode] at ho; exact lockedOutcome_list trivial ho
    | setChannelsSubscriptions => rw [hcode] at ho; exact lockedOutcome_subscriptions ho
    | code3014 => rw [hcode] at ho; exact lockedOutcome_removal ho
    | deleteMulticastTxFlow => rw [hcode] at ho; exact lockedOutcome_delete ho
    | reboot =>
        rw [hcode] at ho
        cases ho
        refine lockedOutcome_same trivial fun c hc => ?_
        rw [List.mem_singleton.mp hc]
        exact id
    | renameTxChannels | renameRxChannels | createMulticastTxFlow | getDeviceName | code2320
    | code1100 | code1102 | code3300 | clearConfig | unknown =>
        rw [hcode] at ho
        cases ho
        exact lockedOutcome_answer trivial _ _ _
  · rw [if_pos hrequest] at ho
    cases ho
    exact lockedOutcome_same (fun h => absurd h hrequest) fun _ hc => by cases hc

/-! ## Sequences of requests -/

/-- In a run the bundles only go, and what is configured stays exactly if every
request is inert. -/
theorem locked_run_outcome {requests : List (List Byte × (Nat → MulticastDraw))}
    {calls : List (List ArcCall)}
    (hrun : Serve.items (lockedStep named) s requests = some (s', calls)) :
    BundlesLeft s.multicasts.bundles s'.multicasts.bundles ∧
      (SameConfig s s' ∧ (∀ cs ∈ calls, ∀ c ∈ cs, ¬ c.Subscription) ↔
        Serve.EachOk (lockedStep named) Inert s requests) := by
  induction requests generalizing s calls with
  | nil =>
      cases hrun
      exact ⟨.refl _, iff_of_true ⟨⟨rfl, rfl, rfl, rfl⟩, fun _ hcs => by cases hcs⟩ trivial⟩
  | cons request requests ih =>
      obtain ⟨⟨s₁, cs₁⟩, h₁, hrun⟩ := Option.bind_eq_some_iff.mp hrun
      obtain ⟨⟨s₂, css⟩, h₂, hrun⟩ := Option.bind_eq_some_iff.mp hrun
      cases hrun
      have hout := lockedStep_outcome h₁
      obtain ⟨hleft, hiff⟩ := ih h₂
      have heach : Serve.EachOk (lockedStep named) Inert s (request :: requests) ↔
          s.Inert request ∧ Serve.EachOk (lockedStep named) Inert s₁ requests := by
        refine and_congr_right fun _ => ⟨fun h => h s₁ cs₁ h₁, fun h s'' b hs'' => ?_⟩
        rw [h₁] at hs''
        cases hs''
        exact h
      rw [heach, ← hiff, List.forall_mem_cons]
      refine ⟨hout.left.trans hleft, ?_⟩
      constructor
      · rintro ⟨hsame, hcs₁, hcss⟩
        have hbundles : s₁.multicasts.bundles = s.multicasts.bundles := by
          have hback := hsame.bundles ▸ hleft
          exact hback.antisymm hout.left
        refine ⟨hout.inert_iff.mp ⟨hbundles, hcs₁⟩, ⟨?_, ?_, ?_, ?_⟩, hcss⟩
        · exact hsame.rxChannels.trans hout.rxChannels.symm
        · exact hsame.txChannels.trans hout.txChannels.symm
        · exact hsame.subscriptions.trans (hout.subscriptions hcs₁).symm
        · exact hsame.bundles.trans hbundles.symm
      · rintro ⟨hinert, hsame, hcss⟩
        obtain ⟨hbundles, hcs₁⟩ := hout.inert_iff.mpr hinert
        refine ⟨⟨?_, ?_, ?_, ?_⟩, hcs₁, hcss⟩
        · exact hsame.rxChannels.trans hout.rxChannels
        · exact hsame.txChannels.trans hout.txChannels
        · exact hsame.subscriptions.trans (hout.subscriptions hcs₁)
        · exact hsame.bundles.trans hbundles

/-- What is configured on a locked device is the same after a sequence of
requests, and no command has gone to the subscriber, exactly if every request
is inert. -/
theorem locked_config_iff {requests : List (List Byte × (Nat → MulticastDraw))}
    {calls : List (List ArcCall)}
    (hrun : Serve.items (lockedStep named) s requests = some (s', calls)) :
    SameConfig s s' ∧ (∀ cs ∈ calls, ∀ c ∈ cs, ¬ c.Subscription) ↔
      Serve.EachOk (lockedStep named) Inert s requests :=
  (locked_run_outcome hrun).2

/-- A receiver with one channel, which is subscribed. -/
def oneReceiver : ArcServer :=
  { start ⟨⟨0, 0, [⟨"in", "in"⟩], [], 24, 0, 48000⟩, "", "", "", [], []⟩ with
    subscriber := some ⟨[some ⟨"out", "other", .unresolved⟩], []⟩ }

/-- A request to remove the subscription of its channel. -/
def removeFirst : List Byte × (Nat → MulticastDraw) :=
  ([0x27, 0xff, 0, 16, 0, 1, 0x30, 0x14, 0, 0, 0, 1, 0, 0, 0, 1], fun _ => ⟨[], ⟨0, true⟩⟩)

theorem locked_config_oneReceiver :
    SameConfig oneReceiver oneReceiver ∧
        (∀ cs ∈ [[ArcCall.unsubscribe 0]], ∀ c ∈ cs, ¬ c.Subscription) ↔
      Serve.EachOk (lockedStep fun _ => true) Inert oneReceiver [removeFirst] :=
  locked_config_iff rfl

/-- The command of this request goes to the subscriber of a locked device. -/
theorem locked_unsubscribes :
    ¬ ∀ s' calls, Serve.items (lockedStep fun _ => true) oneReceiver [removeFirst] =
        some (s', calls) →
      SameConfig oneReceiver s' ∧ ∀ cs ∈ calls, ∀ c ∈ cs, ¬ c.Subscription := by
  intro h
  have hcalls := (h oneReceiver [[.unsubscribe 0]] rfl).2
  exact hcalls _ List.mem_cons_self _ List.mem_cons_self trivial

end ArcServer

end Inferno
