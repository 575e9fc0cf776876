import Inferno.Lib.EarlyView
import Inferno.ResolvePlan
import Inferno.SubscriberSteps
import Inferno.SubscriberWorld

/-!
# What the clients see of the subscriptions

`subscriptions_info` is written by the clients at once and by the worker when
it takes a command or applies an update: an early view of `channels` in the
sense of `EarlyView`. The view settles on what the worker holds, and a request
that fails finds something to mark, in every run in which nobody subscribes a
channel behind an unsubscription that will clear it, and no update is applied
to a channel while another subscription of it waits (`view_agrees`). Neither is
seen to: `unsubscribe_clears_new`.
-/

namespace Inferno

open EarlyView Partial

namespace Subscriber

/-- What the view says about a channel. -/
def shown (s : Subscriber) (ch : Nat) : Option (String × String) :=
  s.subscriptionsInfo[ch]?.join.map fun info => (info.txHostname, info.txChannelName)

/-- Nothing a client could see of the subscriptions has changed. -/
structure SameView (s s' : Subscriber) : Prop where
  channels : s'.channels.length = s.channels.length
  infos : s'.subscriptionsInfo.length = s.subscriptionsInfo.length
  wanted : ∀ ch, Inferno.wanted s'.channels ch = Inferno.wanted s.channels ch
  shown : ∀ ch, s'.shown ch = s.shown ch

theorem SameView.refl (s : Subscriber) : SameView s s := ⟨rfl, rfl, fun _ => rfl, fun _ => rfl⟩

theorem SameView.trans {s s' s'' : Subscriber} (h : SameView s s') (h' : SameView s' s'') :
    SameView s s'' where
  channels := h'.channels.trans h.channels
  infos := h'.infos.trans h.infos
  wanted ch := (h'.wanted ch).trans (h.wanted ch)
  shown ch := (h'.shown ch).trans (h.shown ch)

variable {cfg : SubscriberConfig} {s s' : Subscriber}

theorem SameView.of_eq (hch : s'.channels = s.channels)
    (hinfo : s'.subscriptionsInfo = s.subscriptionsInfo) : SameView s s' := by
  refine ⟨by rw [hch], by rw [hinfo], fun ch => by rw [hch], fun ch => ?_⟩
  rw [Subscriber.shown, Subscriber.shown, hinfo]

theorem setStatus_sameView (s : Subscriber) (chi : Nat) (status : SubscriptionStatus) :
    SameView s (s.setStatus chi status) := by
  refine ⟨rfl, List.length_modify .., fun _ => rfl, fun ch => ?_⟩
  rw [Subscriber.shown, setStatus, join_modify]
  split
  · rw [Option.map_map]
    rfl
  · rfl

theorem orphan_sameView (s : Subscriber) (flowIndex chi : Nat) :
    SameView s (s.orphan cfg flowIndex chi) := by
  unfold orphan
  split
  · exact .refl s
  · refine (setStatus_sameView s chi .unresolved).trans
      ⟨List.length_modify .., rfl, fun ch => ?_, fun _ => rfl⟩
    show ((s.channels.modify _ _)[ch]?.join).map _ = (s.channels[ch]?.join).map _
    rw [join_modify]
    split
    · rw [Option.map_map]
      rfl
    · rfl

theorem markReceiving_sameView (flowIndex : Nat) (source : FlowSource) (s : Subscriber) (chi : Nat) :
    SameView s (s.markReceiving flowIndex source chi) := by
  unfold markReceiving
  split
  · exact .refl s
  · exact setStatus_sameView s chi _

theorem scanChannels_sameView (env : ScanEnv) (s : Subscriber) (flowIndex : Nat) (flow : RxFlow) :
    SameView s (s.scanChannels cfg env flowIndex flow) := by
  unfold scanChannels
  split
  · exact @foldl_inv _ _ _ (SameView s) _ _ (fun v chi _ hv => hv.trans (orphan_sameView v _ chi)) (.refl s)
  split
  · exact @foldl_inv _ _ _ (SameView s) _ _
      (fun v chi _ hv => hv.trans (markReceiving_sameView _ _ v chi)) (.refl s)
  · exact .refl s

theorem scanFlow_sameView {env : ScanEnv} {flowIndex : Nat} {flow : RxFlow}
    {destroy : List DestroyFlow} (h : s.scanFlow cfg env flowIndex flow = some (s', destroy)) :
    SameView s s' := by
  have hview := @scanChannels_sameView cfg env s flowIndex flow
  unfold scanFlow at h
  dsimp only at h
  split at h
  · split at h
    · cases h
    · cases h
      exact hview
    · cases h
      exact hview.trans (.of_eq rfl rfl)
  · cases h
    exact hview

theorem scanLoop_sameView {env : ScanEnv} {flows : List (Option RxFlow)} {flowIndex : Nat}
    {destroy : List DestroyFlow} (h : s.scanLoop cfg env flowIndex flows = some (s', destroy)) :
    SameView s s' := by
  induction flows generalizing s flowIndex destroy with
  | nil =>
      cases h
      exact .refl _
  | cons o flows ih =>
      cases o with
      | none => exact ih h
      | some flow =>
          rw [scanLoop] at h
          obtain ⟨⟨s₁, d₁⟩, h₁, h⟩ := Option.bind_eq_some_iff.mp h
          obtain ⟨⟨s₂, d₂⟩, h₂, h⟩ := Option.bind_eq_some_iff.mp h
          cases h
          exact (scanFlow_sameView h₁).trans (ih h₂)

theorem scanFlows_sameView {env : ScanEnv} {destroy : List DestroyFlow}
    (h : s.scanFlows cfg env = some (s', destroy)) : SameView s s' := by
  unfold scanFlows at h
  obtain ⟨⟨s₁, d₁⟩, h₁, h⟩ := Option.bind_eq_some_iff.mp h
  cases h
  exact (scanLoop_sameView h₁).trans (.of_eq rfl rfl)

theorem txFail_sameView {l : List Nat} (h : l.foldlM txFail s = some s') : SameView s s' := by
  refine @foldlM_inv _ _ _ (SameView s) _ _ _ (fun v chi v' _ hv hfail => ?_) (.refl s) h
  rw [(txFail_cases hfail).2]
  exact hv.trans (setStatus_sameView v chi _)

/-! ## Commands -/

theorem leave_tables {ch : Nat} {sub : ChannelSubscription} (h : s.leave cfg ch sub = some s') :
    s'.channels = s.channels ∧ s'.subscriptionsInfo = s.subscriptionsInfo := by
  unfold leave at h
  split at h
  · cases h
    exact ⟨rfl, rfl⟩
  · rcases release_cases h with ⟨_, rfl⟩ | ⟨_, _, _, _, rfl⟩ <;> exact ⟨rfl, rfl⟩

theorem wanted_set {channels : List (Option ChannelSubscription)} {i : Nat}
    (hi : i < channels.length) (o : Option ChannelSubscription) (ch : Nat) :
    wanted (channels.set i o) ch =
      if ch = i then o.map fun sub => (sub.txHostname, sub.txChannelName)
      else wanted channels ch := by
  rw [wanted, join_set hi, apply_ite (Option.map _)]
  rfl

/-- What the worker's `unsubscribe` does to a channel and its view. -/
theorem unsubscribe_view {ch : Nat} {removeFromInfo : Bool}
    (hlen : s.subscriptionsInfo.length = s.channels.length)
    (h : s.unsubscribe cfg ch removeFromInfo = some s') :
    s'.channels.length = s.channels.length ∧
      s'.subscriptionsInfo.length = s.subscriptionsInfo.length ∧
      (∀ i, wanted s'.channels i = if i = ch then none else wanted s.channels i) ∧
      ∀ i, s'.shown i = if i = ch ∧ removeFromInfo = true ∧ (wanted s.channels ch).isSome then none
        else s.shown i := by
  obtain ⟨hlt, ⟨hnone, rfl⟩ | ⟨sub, s₁, hsub, hleave, rfl⟩⟩ := unsubscribe_cases h
  · have hwanted : wanted s'.channels ch = none := by rw [wanted, hnone, Option.map_none]
    refine ⟨rfl, rfl, fun i => ?_, fun i => ?_⟩
    · split
      · next hi => rw [hi, hwanted]
      · rfl
    · rw [hwanted, if_neg (by simp)]
  · obtain ⟨hch, hinfo⟩ := leave_tables hleave
    refine ⟨by rw [List.length_set, hch], ?_, fun i => ?_, fun i => ?_⟩
    · dsimp only
      rw [hinfo]
      split
      · exact List.length_set
      · rfl
    · dsimp only
      rw [hch]
      exact wanted_set hlt none i
    · have hwanted : (wanted s.channels ch).isSome := by rw [wanted, hsub]; rfl
      rw [shown, shown]
      dsimp only
      rw [hinfo]
      cases removeFromInfo with
      | true =>
          rw [if_pos rfl, join_set (hlen ▸ hlt)]
          by_cases hi : i = ch
          · rw [if_pos hi, if_pos ⟨hi, rfl, hwanted⟩, Option.map_none]
          · rw [if_neg hi, if_neg fun hcon => hi hcon.1]
      | false => rw [if_neg Bool.false_ne_true, if_neg fun hcon => Bool.false_ne_true hcon.2.1]

/-- What the worker's `subscribe` does: the view is not touched. -/
theorem subscribe_view {ch : Nat} {txChannelName txHostname : String}
    (hlen : s.subscriptionsInfo.length = s.channels.length)
    (h : s.subscribe cfg ch txChannelName txHostname = some s') :
    s'.channels.length = s.channels.length ∧
      s'.subscriptionsInfo.length = s.subscriptionsInfo.length ∧
      (∀ i, wanted s'.channels i =
        if i = ch then some (txHostname, txChannelName) else wanted s.channels i) ∧
      ∀ i, s'.shown i = s.shown i := by
  obtain ⟨hlt, s₁, hfirst, rfl⟩ := subscribe_cases h
  obtain ⟨h1, h2, h3, h4⟩ : s₁.channels.length = s.channels.length ∧
      s₁.subscriptionsInfo.length = s.subscriptionsInfo.length ∧
      (∀ i, i ≠ ch → wanted s₁.channels i = wanted s.channels i) ∧
      ∀ i, s₁.shown i = s.shown i := by
    rcases hfirst with ⟨_, rfl⟩ | hun
    · exact ⟨rfl, rfl, fun _ _ => rfl, fun _ => rfl⟩
    · obtain ⟨h1, h2, h3, h4⟩ := unsubscribe_view hlen hun
      refine ⟨h1, h2, fun i hi => by rw [h3, if_neg hi], fun i => ?_⟩
      rw [h4, if_neg fun hcon => Bool.false_ne_true hcon.2.1]
  refine ⟨by rw [List.length_set, h1], h2, fun i => ?_, h4⟩
  dsimp only
  rw [wanted_set (h1 ▸ hlt)]
  split
  · rfl
  · next hi => exact h3 i hi

end Subscriber

/-! ## Commands on their way -/

/-- What a command means for one channel. -/
def viewCmd (ch : Nat) : SubscriberCommand → Option (Cmd (String × String))
  | .subscribe c txChannelName txHostname =>
      if c = ch then some (.set (txHostname, txChannelName)) else none
  | .unsubscribe c => if c = ch then some .clear else none
  | .shutdown => none
  | .forceRefresh => none

/-- An element may be taken out first if nothing before it counts. -/
theorem filterMap_eraseIdx {β γ : Type} {f : β → Option γ} {l : List β} {i : Nat} {c : β}
    (hi : l[i]? = some c) (hpair : l.Pairwise fun a b => f a = none ∨ f b = none) :
    (f c).toList ++ (l.eraseIdx i).filterMap f = l.filterMap f := by
  induction l generalizing i with
  | nil => cases hi
  | cons a l ih =>
      obtain ⟨ha, hl⟩ := List.pairwise_cons.mp hpair
      cases i with
      | zero =>
          obtain rfl := Option.some.inj hi
          rw [List.eraseIdx_cons_zero, List.filterMap_cons]
          cases f a <;> rfl
      | succ i =>
          rw [List.getElem?_cons_succ] at hi
          have hrest := ih hi hl
          rw [List.eraseIdx_cons_succ, List.filterMap_cons, List.filterMap_cons]
          rcases ha c (List.mem_of_getElem? hi) with hfa | hfc
          · rw [hfa]
            exact hrest
          · rw [hfc] at hrest ⊢
            rw [← hrest]
            rfl

/-- The view agrees with the worker about every channel, given what is on its
way. -/
structure Agree (s : Subscriber) (coming : Nat → List (Cmd (String × String))) : Prop where
  lengths : s.subscriptionsInfo.length = s.channels.length
  settles : ∀ ch, Settles (wanted s.channels ch) (s.shown ch) (coming ch)

theorem Agree.same {s s' : Subscriber} {coming : Nat → List (Cmd (String × String))}
    (h : Agree s coming) (hview : Subscriber.SameView s s') : Agree s' coming where
  lengths := by rw [hview.infos, hview.channels, h.lengths]
  settles ch := by
    rw [hview.wanted, hview.shown]
    exact h.settles ch

/-- Connecting a channel writes its view again. -/
theorem Agree.connect {cfg : SubscriberConfig} {s s' : Subscriber}
    {coming : Nat → List (Cmd (String × String))} {now : Clock} {remote : ChannelOtherEnd}
    {chi : Nat} (h : Agree s coming)
    (hlast : ∀ v, (coming chi).getLast? = some (.set v) → wanted s.channels chi = some v)
    (hrun : s.connect cfg now remote chi = some s') :
    Agree s' coming ∧ ∀ ch, wanted s'.channels ch = wanted s.channels ch := by
  obtain ⟨sub, flow, hsub, _, ⟨_, rfl⟩ | ⟨_, rc, rbOutput, _, _, rfl⟩⟩ :=
    Subscriber.connect_cases hrun
  · exact ⟨h, fun _ => rfl⟩
  have hwanted : wanted s.channels chi = some (sub.txHostname, sub.txChannelName) := by
    rw [wanted, hsub, Option.map_some]
  have hlt := join_lt hsub
  have hkeep : ∀ ch, wanted (s.channels.set chi (some { sub with remote := some remote })) ch =
      wanted s.channels ch := by
    intro ch
    rw [Subscriber.wanted_set hlt]
    split
    · next hch => rw [hch, hwanted, Option.map_some]
    · rfl
  refine ⟨⟨by simp only [List.length_set, h.lengths], fun ch => ?_⟩, hkeep⟩
  have hsettles := h.settles ch
  dsimp only
  rw [hkeep, Subscriber.shown]
  dsimp only
  rw [join_set (h.lengths ▸ hlt)]
  split
  · next hch =>
      subst hch
      rw [hwanted] at hsettles hlast ⊢
      exact hsettles.show fun w hw => (Option.some.inj (hlast w hw)).symm
  · exact hsettles

/-! ## Everybody together -/

/-- The updates of a resolution that are not applied yet. -/
def Resolving.updates (r : Resolving) : List ChannelSourceUpdate :=
  r.executors.flatten.flatMap Job.updates ++ r.batches.flatten ++ r.applying

namespace RxWorld

def pending (w : RxWorld) : List ChannelSourceUpdate :=
  match w.phase with
  | .resolving r => r.updates
  | _ => []

/-- The commands for a channel that are on their way. -/
def coming (w : RxWorld) (ch : Nat) : List (Cmd (String × String)) :=
  (w.queue ++ w.calls).filterMap (viewCmd ch)

/-- If a subscription comes last, it is to `v`. -/
def LastIs (coming : List (Cmd (String × String))) (v : Option (String × String)) : Prop :=
  match coming.getLast? with
  | some (.set u) => v = some u
  | _ => True

instance (coming : List (Cmd (String × String))) (v : Option (String × String)) :
    Decidable (LastIs coming v) := by
  unfold LastIs
  split <;> infer_instance

/-- The condition on an event. Nobody subscribes a channel that is being
subscribed, or behind an unsubscription that will find it subscribed; nobody
unsubscribes a channel that is being subscribed; and an update is applied to a
channel only if no other subscription of it comes last. -/
def ViewFits (w : RxWorld) : RxEvent → Prop
  | .subscribe ch _ _ => (∀ c ∈ w.calls, viewCmd ch c = none) ∧
      Clears (wanted w.worker.channels ch).isSome (w.queue.filterMap (viewCmd ch)) = false
  | .unsubscribe ch => ∀ c ∈ w.calls, viewCmd ch c = none
  | .apply => match w.phase with
      | .resolving r => ∀ upd ∈ r.applying.head?, ∀ chi ∈ upd.localChannelIndices,
          LastIs (w.coming chi) (wanted w.worker.channels chi)
      | _ => True
  | _ => True

instance (w : RxWorld) (e : RxEvent) : Decidable (w.ViewFits e) := by
  unfold ViewFits
  split
  · infer_instance
  · infer_instance
  · split <;> infer_instance
  · infer_instance

/-- The view is right: a flow request that may still fail is for channels the
view has an entry for, and when no command is on its way, both sides name the
same transmitter channel or both none. -/
structure ViewRight (w : RxWorld) : Prop where
  requests : ∀ r, w.phase = .resolving r → ∀ job ∈ r.executors.flatten, ∀ upd ∈ job.updates,
    ∀ chi ∈ upd.localChannelIndices, (w.worker.subscriptionsInfo[chi]?.join).isSome
  drained : w.queue = [] → w.calls = [] → ∀ ch, w.worker.shown ch = wanted w.worker.channels ch

/-- The invariant. -/
structure ViewInv (w : RxWorld) : Prop where
  agree : Agree w.worker w.coming
  calls : ∀ ch, w.calls.Pairwise fun c c' => viewCmd ch c = none ∨ viewCmd ch c' = none
  pending : ∀ upd ∈ w.pending, ∀ chi ∈ upd.localChannelIndices,
    (wanted w.worker.channels chi).isSome

theorem ViewInv.right {w : RxWorld} (h : w.ViewInv) : w.ViewRight where
  requests r hr job hjob upd hupd chi hchi := by
    have hpending : upd ∈ w.pending := by
      rw [RxWorld.pending, hr]
      exact List.mem_append_left _ (List.mem_append_left _ (List.mem_flatMap.mpr ⟨job, hjob, hupd⟩))
    have hshown := (h.agree.settles chi).shown (h.pending upd hpending chi hchi)
    rw [Subscriber.shown, Option.isSome_map] at hshown
    exact hshown
  drained hqueue hcalls ch := by
    have hsettles := h.agree.settles ch
    rw [coming, hqueue, hcalls] at hsettles
    exact Eq.symm hsettles

/-- Events that change neither view, nor commands, nor add updates. -/
theorem ViewInv.of_same {w w' : RxWorld} (h : w.ViewInv)
    (hview : Subscriber.SameView w.worker w'.worker) (hqueue : w'.queue = w.queue)
    (hcalls : w'.calls = w.calls) (hpending : w'.pending ⊆ w.pending) : w'.ViewInv where
  agree := by
    have hcoming : w'.coming = w.coming := by
      funext ch
      rw [coming, coming, hqueue, hcalls]
    rw [hcoming]
    exact h.agree.same hview
  calls ch := hcalls ▸ h.calls ch
  pending upd hupd chi hchi := by
    rw [hview.wanted]
    exact h.pending upd (hpending hupd) chi hchi

theorem ViewInv.subscribe {w w' : RxWorld} (h : w.ViewInv) {ch : Nat}
    {txChannelName txHostname : String} (hfits : w.ViewFits (.subscribe ch txChannelName txHostname))
    (hrun : w.subscribe ch txChannelName txHostname = some w') : w'.ViewInv := by
  unfold RxWorld.subscribe at hrun
  split at hrun
  swap
  · cases hrun
  next hlt =>
  obtain rfl := Option.some.inj hrun
  obtain ⟨hcalls, hclears⟩ := hfits
  refine ⟨⟨?_, fun i => ?_⟩, fun i => ?_, h.pending⟩
  · rw [List.length_set]
    exact h.agree.lengths
  · have hsettles := h.agree.settles i
    rw [coming, Subscriber.shown]
    dsimp only
    rw [join_set hlt, ← List.append_assoc, List.filterMap_append]
    by_cases hi : i = ch
    · subst hi
      have hnone : w.calls.filterMap (viewCmd i) = [] := List.filterMap_eq_nil_iff.mpr hcalls
      rw [if_pos rfl, List.filterMap_append, hnone, List.append_nil]
      have hset := settles_set (txHostname, txChannelName) hclears
      simpa [viewCmd] using hset
    · rw [if_neg hi]
      simpa [viewCmd, coming, Subscriber.shown, Ne.symm hi] using hsettles
  · refine List.pairwise_append.mpr ⟨h.calls i, List.pairwise_singleton _ _, fun c hc c' hc' => ?_⟩
    rw [List.mem_singleton.mp hc']
    by_cases hi : i = ch
    · exact .inl (hi ▸ hcalls c hc)
    · exact .inr (by simp [viewCmd, Ne.symm hi])

theorem ViewInv.send {w : RxWorld} (h : w.ViewInv) {c : SubscriberCommand}
    (hc : ∀ ch, viewCmd ch c = none ∨
      viewCmd ch c = some .clear ∧ ∀ c ∈ w.calls, viewCmd ch c = none) : (w.send c).ViewInv := by
  refine ⟨⟨h.agree.lengths, fun ch => ?_⟩, h.calls, h.pending⟩
  have hsettles := h.agree.settles ch
  rw [coming, List.filterMap_append] at hsettles
  show Settles (wanted w.worker.channels ch) (w.worker.shown ch)
    (((w.queue ++ [c]) ++ w.calls).filterMap (viewCmd ch))
  rw [List.filterMap_append, List.filterMap_append]
  rcases hc ch with hnone | ⟨hclear, hcalls⟩
  · simpa [hnone] using hsettles
  · rw [List.filterMap_eq_nil_iff.mpr hcalls, List.append_nil] at hsettles ⊢
    simpa [hclear] using hsettles.clear

theorem ViewInv.deliver {w w' : RxWorld} (h : w.ViewInv) {i : Nat}
    (hrun : w.deliver i = some w') : w'.ViewInv := by
  unfold RxWorld.deliver at hrun
  obtain ⟨c, hc, hrun⟩ := Option.bind_eq_some_iff.mp hrun
  obtain rfl := Option.some.inj hrun
  refine ⟨⟨h.agree.lengths, fun ch => ?_⟩, fun ch => ?_, h.pending⟩
  · have hsettles := h.agree.settles ch
    have hmove := filterMap_eraseIdx hc (h.calls ch)
    have hsame : ((w.queue ++ [c]) ++ w.calls.eraseIdx i).filterMap (viewCmd ch) = w.coming ch := by
      rw [coming, List.filterMap_append, List.filterMap_append, List.filterMap_append, ← hmove,
        List.append_assoc]
      congr 2
    rw [coming]
    dsimp only
    rw [hsame]
    exact hsettles
  · exact (h.calls ch).sublist (List.eraseIdx_sublist _ _)

theorem ViewInv.handle {cfg : RxConfig} {w w' : RxWorld} (h : w.ViewInv)
    (hidle : w.pending = []) (hrun : w.handle cfg = some w') : w'.ViewInv := by
  obtain ⟨c, queue, next, hqueue, hnext, rfl⟩ := handle_cases hrun
  have hcoming : ∀ ch, w.coming ch =
      (viewCmd ch c).toList ++ (queue ++ w.calls).filterMap (viewCmd ch) := by
    intro ch
    rw [coming, hqueue, List.cons_append, List.filterMap_cons]
    cases viewCmd ch c <;> rfl
  have hsettles : ∀ ch, Settles (wanted w.worker.channels ch) (w.worker.shown ch)
      ((viewCmd ch c).toList ++ (queue ++ w.calls).filterMap (viewCmd ch)) := by
    intro ch
    rw [← hcoming]
    exact h.agree.settles ch
  have hpending : ∀ w' : RxWorld, w'.phase = w.phase → ∀ upd ∈ w'.pending, ∀ chi ∈
      upd.localChannelIndices, (wanted w'.worker.channels chi).isSome := by
    intro w' hphase upd hupd
    rw [RxWorld.pending, hphase, ← RxWorld.pending, hidle] at hupd
    cases hupd
  cases c with
  | shutdown =>
      obtain rfl := Option.some.inj hnext
      exact ⟨⟨h.agree.lengths, hsettles⟩, h.calls, hpending _ rfl⟩
  | forceRefresh =>
      obtain rfl := Option.some.inj hnext
      exact ⟨⟨h.agree.lengths, hsettles⟩, h.calls, hpending _ rfl⟩
  | subscribe ch txChannelName txHostname =>
      obtain ⟨worker, hsub, rfl⟩ := Option.map_eq_some_iff.mp hnext
      obtain ⟨h1, h2, h3, h4⟩ := Subscriber.subscribe_view h.agree.lengths hsub
      refine ⟨⟨by rw [h2, h1, h.agree.lengths], fun i => ?_⟩, h.calls, hpending _ rfl⟩
      have hi := hsettles i
      dsimp only
      rw [h3, h4]
      by_cases hch : i = ch
      · subst hch
        rw [if_pos rfl]
        simp only [viewCmd, if_pos, Option.toList_some, List.singleton_append] at hi
        exact hi.2
      · rw [if_neg hch]
        simpa [viewCmd, coming, Ne.symm hch] using hi
  | unsubscribe ch =>
      obtain ⟨worker, hun, rfl⟩ := Option.map_eq_some_iff.mp hnext
      obtain ⟨h1, h2, h3, h4⟩ := Subscriber.unsubscribe_view h.agree.lengths hun
      refine ⟨⟨by rw [h2, h1, h.agree.lengths], fun i => ?_⟩, h.calls, hpending _ rfl⟩
      have hi := hsettles i
      dsimp only
      rw [h3, h4]
      by_cases hch : i = ch
      · subst hch
        rw [if_pos rfl]
        simp only [viewCmd, if_pos, Option.toList_some, List.singleton_append] at hi
        by_cases hcell : (wanted w.worker.channels i).isSome
        · rw [if_pos ⟨rfl, rfl, hcell⟩]
          have hrest := hi.2
          rw [if_pos hcell] at hrest
          exact hrest
        · rw [if_neg fun hcon => hcell hcon.2.2]
          have hrest := hi.2
          rw [if_neg hcell] at hrest
          exact hrest
      · rw [if_neg hch, if_neg fun hcon => hch hcon.1]
        simpa [viewCmd, coming, Ne.symm hch] using hi

/-! ## A resolution -/

theorem ViewInv.resolve {cfg : RxConfig} {w w' : RxWorld} (h : w.ViewInv) {env : ResolveEnv}
    (hrun : w.resolve cfg env = some w') : w'.ViewInv := by
  unfold RxWorld.resolve at hrun
  obtain ⟨p, hplan, hrun⟩ := Option.bind_eq_some_iff.mp hrun
  obtain rfl := Option.some.inj hrun
  obtain ⟨hresolved, hfutures⟩ := planResolve_needed hplan
  refine ⟨⟨h.agree.lengths, h.agree.settles⟩, h.calls, fun upd hupd chi hchi => ?_⟩
  suffices hunserved : Unserved w.worker.channels chi by
    obtain ⟨sub, hsub, _⟩ := hunserved
    show (wanted w.worker.channels chi).isSome
    rw [wanted, hsub]
    rfl
  simp only [RxWorld.pending, Resolving.updates, List.append_nil, List.mem_append,
    List.mem_flatMap, List.mem_flatten, List.mem_map, List.mem_singleton] at hupd
  rcases hupd with ⟨job, ⟨jobs, ⟨e, he, rfl⟩, hjob⟩, hupd⟩ | ⟨batch, rfl, hupd⟩
  · exact hfutures e he job hjob upd hupd chi hchi
  · exact hresolved upd hupd chi hchi

/-- What a future does to the worker, and what it leaves. -/
theorem runJob_view {cfg : RxConfig} {w w' : RxWorld} {job : Job} {rest rest' : List Job}
    {outcome : JobOutcome} {sent : Option (List ChannelSourceUpdate)}
    (hrun : w.runJob cfg job rest outcome = some (w', rest', sent)) :
    Subscriber.SameView w.worker w'.worker ∧ w'.queue = w.queue ∧ w'.calls = w.calls ∧
      rest' ⊆ rest ∧ ∀ us ∈ sent, us = job.updates := by
  unfold RxWorld.runJob at hrun
  split at hrun
  · cases hrun
    exact ⟨.refl _, rfl, rfl, List.Subset.refl _, fun us hus => (Option.some.inj hus).symm⟩
  · cases hrun
    exact ⟨.refl _, rfl, rfl, List.Subset.refl _, fun us hus => by cases hus⟩
  · cases hrun
    exact ⟨.refl _, rfl, rfl, List.Subset.refl _, fun us hus => (Option.some.inj hus).symm⟩
  · cases hrun
    exact ⟨.of_eq rfl rfl, rfl, rfl, List.Subset.refl _, fun us hus => by cases hus⟩
  · split at hrun
    · cases hrun
      exact ⟨.refl _, rfl, rfl, List.nil_subset _, fun us hus => by cases hus⟩
    · obtain ⟨worker, hfail, hrun⟩ := Option.bind_eq_some_iff.mp hrun
      cases hrun
      exact ⟨(Subscriber.txFail_sameView hfail).trans (.of_eq rfl rfl), rfl, rfl,
        List.Subset.refl _, fun us hus => by cases hus⟩
  · split at hrun
    · cases hrun
      exact ⟨.refl _, rfl, rfl, List.nil_subset _, fun us hus => by cases hus⟩
    split at hrun
    · cases hrun
      exact ⟨.refl _, rfl, rfl, List.nil_subset _, fun us hus => by cases hus⟩
    · obtain ⟨flow, _, hrun⟩ := Option.bind_eq_some_iff.mp hrun
      cases hrun
      exact ⟨.of_eq rfl rfl, rfl, rfl, List.Subset.refl _, fun us hus => (Option.some.inj hus).symm⟩
  · cases hrun

theorem job_pending {r : Resolving} {k : Nat} {job : Job} {rest rest' : List Job}
    {sent : Option (List ChannelSourceUpdate)} (hk : r.executors[k]? = some (job :: rest))
    (hrest : rest' ⊆ rest) (hsent : ∀ us ∈ sent, us = job.updates) :
    Resolving.updates { r with
      executors := r.executors.set k rest', batches := r.batches ++ sent.toList } ⊆ r.updates := by
  have hjobs : job :: rest ∈ r.executors := List.mem_of_getElem? hk
  intro upd hupd
  simp only [Resolving.updates, List.mem_append, List.mem_flatMap, List.mem_flatten] at hupd ⊢
  rcases hupd with (⟨j, ⟨l, hl, hj⟩, hu⟩ | ⟨batch, hbatch | hbatch, hu⟩) | hu
  · rcases List.mem_or_eq_of_mem_set hl with hl | rfl
    · exact .inl (.inl ⟨j, ⟨l, hl, hj⟩, hu⟩)
    · exact .inl (.inl ⟨j, ⟨_, hjobs, List.mem_cons_of_mem _ (hrest hj)⟩, hu⟩)
  · exact .inl (.inr ⟨batch, hbatch, hu⟩)
  · rw [hsent batch (Option.mem_toList.mp hbatch)] at hu
    exact .inl (.inl ⟨job, ⟨_, hjobs, List.mem_cons_self⟩, hu⟩)
  · exact .inr hu

theorem ViewInv.job {cfg : RxConfig} {w w' : RxWorld} (h : w.ViewInv) {k : Nat}
    {outcome : JobOutcome} (hrun : w.job cfg k outcome = some w') : w'.ViewInv := by
  obtain ⟨r, job, rest, w₁, rest', sent, hphase, hk, hjob, rfl⟩ := job_cases hrun
  obtain ⟨hview, hqueue, hcalls, hrest, hsent⟩ := runJob_view hjob
  refine h.of_same hview hqueue hcalls ?_
  rw [RxWorld.pending, RxWorld.pending, hphase]
  exact job_pending hk hrest hsent

theorem ViewInv.receive {w w' : RxWorld} (h : w.ViewInv) {i : Nat} {now : Option Clock}
    (hrun : w.receiveBatch i now = some w') : w'.ViewInv := by
  obtain ⟨r, batch, hphase, happlying, hbatch, rfl⟩ := receive_cases hrun
  refine h.of_same (.refl _) rfl rfl ?_
  have hmem : batch ∈ r.batches := List.mem_of_getElem? hbatch
  intro upd hupd
  rw [RxWorld.pending, hphase]
  cases now <;>
    simp only [RxWorld.pending, Resolving.updates, List.mem_append, List.mem_flatten] at hupd ⊢
  · rcases hupd with (hu | ⟨b, hb, hu⟩) | hu
    · exact .inl (.inl hu)
    · exact .inl (.inr ⟨b, List.mem_of_mem_eraseIdx hb, hu⟩)
    · exact .inr hu
  · rcases hupd with (hu | ⟨b, hb, hu⟩) | hu
    · exact .inl (.inl hu)
    · exact .inl (.inr ⟨b, List.mem_of_mem_eraseIdx hb, hu⟩)
    · exact .inl (.inr ⟨batch, hmem, hu⟩)

theorem ViewInv.apply {cfg : RxConfig} {w w' : RxWorld} (h : w.ViewInv) (hfits : w.ViewFits .apply)
    (hrun : w.apply cfg = some w') : w'.ViewInv := by
  obtain ⟨r, upd, rest, worker, hphase, happlying, happly, rfl⟩ := apply_cases hrun
  simp only [ViewFits, hphase, happlying, List.head?_cons, Option.mem_some_iff,
    forall_eq'] at hfits
  obtain ⟨hagree, hwanted⟩ : Agree worker w.coming ∧
      ∀ ch, wanted worker.channels ch = wanted w.worker.channels ch := by
    refine @foldlM_inv _ _ _ (fun s => Agree s w.coming ∧
      ∀ ch, wanted s.channels ch = wanted w.worker.channels ch) _ _ _
      (fun s chi s' hchi hs hconnect => ?_) ⟨h.agree, fun _ => rfl⟩
      (Subscriber.applyUpdate_cases happly)
    have hlast : ∀ v, (w.coming chi).getLast? = some (.set v) → wanted s.channels chi = some v := by
      intro v hv
      have hfit := hfits chi hchi
      rw [LastIs, hv] at hfit
      exact (hs.2 chi).trans hfit
    obtain ⟨hagree, hwanted⟩ := hs.1.connect hlast hconnect
    exact ⟨hagree, fun ch => (hwanted ch).trans (hs.2 ch)⟩
  refine ⟨hagree, h.calls, fun upd' hupd' chi hchi => ?_⟩
  show (wanted worker.channels chi).isSome
  rw [hwanted]
  refine h.pending upd' ?_ chi hchi
  rw [RxWorld.pending, hphase]
  simp only [RxWorld.pending, Resolving.updates, List.mem_append] at hupd' ⊢
  rcases hupd' with hu | hu
  · exact .inl hu
  · exact .inr (happlying ▸ List.mem_cons_of_mem _ hu)

theorem ViewInv.finish {w w' : RxWorld} (h : w.ViewInv) (hrun : w.finish = some w') :
    w'.ViewInv := by
  obtain ⟨r, _, _, _, _, rfl⟩ := finish_cases hrun
  exact h.of_same (.refl _) rfl rfl (List.nil_subset _)

/-! ## The scan -/

theorem ViewInv.scan {cfg : RxConfig} {w w' : RxWorld} (h : w.ViewInv) {env : Subscriber.ScanEnv}
    (hrun : w.scan cfg env = some w') : w'.ViewInv := by
  obtain ⟨⟨worker, destroy⟩, hscan, hrun⟩ := Option.bind_eq_some_iff.mp hrun
  obtain rfl := Option.some.inj hrun
  refine h.of_same (Subscriber.scanFlows_sameView hscan) rfl rfl ?_
  rw [RxWorld.pending]
  cases destroy <;> exact List.nil_subset _

theorem ViewInv.destroy {w w' : RxWorld} (h : w.ViewInv) {i : Nat}
    (hrun : w.destroy i = some w') : w'.ViewInv := by
  obtain ⟨ds, d, _, _, rfl⟩ := destroy_cases hrun
  refine h.of_same (.refl _) rfl rfl ?_
  rw [RxWorld.pending]
  dsimp only
  split
  · next hphase => split at hphase <;> cases hphase
  · exact List.nil_subset _

/-! ## Every run -/

theorem isFree_pending {w : RxWorld} (h : w.isFree = true) : w.pending = [] := by
  unfold RxWorld.pending
  unfold RxWorld.isFree at h
  rcases hphase : w.phase with _ | r | flows
  · rfl
  · simp [hphase] at h
  · rfl

theorem ViewInv.step {cfg : RxConfig} {w w' : RxWorld} (h : w.ViewInv) {e : RxEvent}
    (hfits : w.ViewFits e) (hrun : w.step cfg e = some w') : w'.ViewInv := by
  cases e with
  | subscribe ch txChannelName txHostname => exact h.subscribe hfits hrun
  | unsubscribe ch =>
      obtain rfl := Option.some.inj hrun
      refine h.send fun i => ?_
      by_cases hi : ch = i
      · exact .inr ⟨by simp [viewCmd, hi], hi ▸ hfits⟩
      · exact .inl (by simp [viewCmd, hi])
  | saveState =>
      obtain rfl := Option.some.inj hrun
      exact h.send fun _ => .inl rfl
  | shutdown =>
      obtain rfl := Option.some.inj hrun
      exact h.send fun _ => .inl rfl
  | deliver i => exact h.deliver hrun
  | handle =>
      rw [RxWorld.step] at hrun
      split at hrun
      · next hfree => exact h.handle (isFree_pending hfree) hrun
      · cases hrun
  | resolve env =>
      rw [RxWorld.step] at hrun
      split at hrun
      · exact h.resolve hrun
      · cases hrun
  | job k outcome => exact h.job hrun
  | receive i now => exact h.receive hrun
  | apply => exact h.apply hfits hrun
  | finish => exact h.finish hrun
  | scan env =>
      rw [RxWorld.step] at hrun
      split at hrun
      · exact h.scan hrun
      · cases hrun
  | destroy i => exact h.destroy hrun
  | task i =>
      obtain ⟨t, _, rfl⟩ := task_cases hrun
      exact h.of_same (.of_eq rfl rfl) rfl rfl (List.Subset.refl _)
  | receiver now =>
      obtain ⟨receiver, _, rfl⟩ := Option.map_eq_some_iff.mp hrun
      exact h.of_same (.refl _) rfl rfl (List.Subset.refl _)

/-! ## From the start -/

theorem loadState_agree {cfg : SubscriberConfig} {saved : List Subscriber.SavedChannelState}
    {s s' : Subscriber} (h : Agree s fun _ => []) (hrun : s.loadState cfg saved = some s') :
    Agree s' fun _ => [] := by
  induction saved generalizing s with
  | nil =>
      obtain rfl := Option.some.inj hrun
      exact h
  | cons chst saved ih =>
      rw [Subscriber.loadState] at hrun
      dsimp only at hrun
      split at hrun
      · exact ih h hrun
      next hlt =>
      obtain ⟨s₁, hsub, hrun⟩ := Option.bind_eq_some_iff.mp hrun
      obtain ⟨h1, h2, h3, h4⟩ := Subscriber.subscribe_view
        (by rw [List.length_set]; exact h.lengths) hsub
      refine ih ⟨by rw [h1, h2, List.length_set]; exact h.lengths, fun i => ?_⟩ hrun
      have hi : wanted s.channels i = s.shown i := h.settles i
      show wanted s₁.channels i = s₁.shown i
      rw [h3, h4, Subscriber.shown]
      dsimp only
      rw [join_set (h.lengths ▸ Nat.not_le.mp hlt)]
      split
      · rfl
      · exact hi

theorem viewInv_start {cfg : SubscriberConfig} {n : Nat}
    {saved : List Subscriber.SavedChannelState} {worker : Subscriber}
    (hload : (Subscriber.new n).loadState cfg saved = some worker) (receiver : FlowsReceiver) :
    (start worker receiver).ViewInv where
  agree := by
    refine loadState_agree ⟨by simp [Subscriber.new], fun ch => ?_⟩ hload
    have hnone : ∀ (β : Type) (i : Nat), (List.replicate n (none : Option β))[i]?.join = none := by
      intro β i
      rw [List.getElem?_replicate]
      split <;> rfl
    show wanted (List.replicate n none) ch = ((List.replicate n none)[ch]?.join).map _
    rw [wanted, hnone, hnone]
    rfl
  calls _ := .nil
  pending _ hupd := by cases hupd

end RxWorld

open RxWorld in
/-- The view is right in every run whose events meet the condition. -/
theorem view_agrees (cfg : RxConfig) (n : Nat) (saved : List Subscriber.SavedChannelState)
    (worker : Subscriber)
    (hload : (Subscriber.new n).loadState cfg.toSubscriberConfig saved = some worker)
    (receiver : FlowsReceiver) (w : RxWorld)
    (h : Reaches cfg ViewFits (start worker receiver) w) : w.ViewRight := by
  suffices hinv : w.ViewInv from hinv.right
  induction h with
  | refl => exact viewInv_start hload receiver
  | tail _ hstep ih =>
      obtain ⟨e, hfits, hrun⟩ := hstep
      exact ih.step hfits hrun

/-- One channel, subscribed to `a` at host `h` from the saved state. -/
def oneSaved : List Subscriber.SavedChannelState := [⟨1, "a", "h"⟩]

def sampleRxConfig : RxConfig := ⟨⟨.owned, 48000, 1000000, 0, none⟩, fun _ => 16384⟩

/-- Channel `a` of `h` is found at one server, everything else is not. -/
def sampleAnswers : ResolveEnv where
  queryChan _ := some ⟨⟨0x0a000001, 4455⟩, 2, 1, 24, 0, 16, 64, 1000000, none⟩
  queryBund _ := none
  socketOk _ := true
  elapsed _ := 0

open RxWorld in
/-- A request that fails finds the subscription it is for. -/
theorem view_agrees_failedRequest :
    ∃ worker w, (Subscriber.new 1).loadState sampleRxConfig.toSubscriberConfig oneSaved = some worker ∧
      runWith sampleRxConfig ViewFits (start worker (.start 1 none))
        [.resolve sampleAnswers, .job 0 .failed] = some w ∧
      w.worker.shown 0 = wanted w.worker.channels 0 := by
  obtain ⟨worker, hload⟩ := Option.isSome_iff_exists.mp (show ((Subscriber.new 1).loadState
    sampleRxConfig.toSubscriberConfig oneSaved).isSome by decide)
  have hruns : (((Subscriber.new 1).loadState sampleRxConfig.toSubscriberConfig oneSaved).bind
      fun worker => (runWith sampleRxConfig ViewFits (start worker (.start 1 none))
        [.resolve sampleAnswers, .job 0 .failed]).map fun w => (w.queue, w.calls)) =
      some ([], []) := by decide
  rw [hload, Option.bind_some] at hruns
  obtain ⟨w, hw, hempty⟩ := Option.map_eq_some_iff.mp hruns
  obtain ⟨hqueue, hcalls⟩ := Prod.mk.inj hempty
  have hright := view_agrees sampleRxConfig 1 oneSaved worker hload (.start 1 none) w
    (reaches_of_runWith hw)
  exact ⟨worker, w, hload, hw, hright.drained hqueue hcalls 0⟩

/-- Channel 0 is subscribed to `b` while its unsubscription waits. -/
def resubscribe : List RxEvent :=
  [.unsubscribe 0, .subscribe 0 "b" "h", .deliver 0, .handle, .handle]

open RxWorld in
/-- The unsubscription clears what the view says about the new subscription. -/
theorem unsubscribe_clears_new :
    ¬ ∀ worker, (Subscriber.new 1).loadState sampleRxConfig.toSubscriberConfig oneSaved =
        some worker → ∀ w, Reaches sampleRxConfig (fun _ _ => True) (start worker (.start 1 none)) w →
      w.ViewRight := by
  intro h
  obtain ⟨worker, hload⟩ := Option.isSome_iff_exists.mp (show ((Subscriber.new 1).loadState
    sampleRxConfig.toSubscriberConfig oneSaved).isSome by decide)
  have hruns : (((Subscriber.new 1).loadState sampleRxConfig.toSubscriberConfig oneSaved).bind
      fun worker => (runWith sampleRxConfig (fun _ _ => True) (start worker (.start 1 none))
        resubscribe).map fun w =>
          (w.queue, w.calls, w.worker.shown 0, wanted w.worker.channels 0)) =
      some ([], [], none, some ("h", "b")) := by decide
  rw [hload, Option.bind_some] at hruns
  obtain ⟨w, hw, hend⟩ := Option.map_eq_some_iff.mp hruns
  simp only [Prod.mk.injEq] at hend
  obtain ⟨hqueue, hcalls, hshown, hwanted⟩ := hend
  have hdrained := (h worker hload w (reaches_of_runWith hw)).drained hqueue hcalls 0
  rw [hshown, hwanted] at hdrained
  cases hdrained

/-- And the request for it, if it fails, finds nothing to mark. -/
example : (((Subscriber.new 1).loadState sampleRxConfig.toSubscriberConfig oneSaved).bind
    fun worker => RxWorld.runWith sampleRxConfig (fun _ _ => True) (.start worker (.start 1 none))
      (resubscribe ++ [.resolve sampleAnswers, .job 0 .failed])).isNone := by
  decide

end Inferno
