import Inferno.ChannelsSubscriber
import Inferno.Lib.Partial

/-!
# What the worker's operations do

One lemma for each operation of the worker: what it needs and what it changes.
Later modules use these and not the definitions.
-/

namespace Inferno

open Partial

/-! ## Tables of optional entries -/

theorem join_set {β : Type} {l : List (Option β)} {i : Nat} (hi : i < l.length) (o : Option β)
    (j : Nat) : (l.set i o)[j]?.join = if j = i then o else l[j]?.join := by
  split
  · next h => rw [h, List.getElem?_set_self hi, Option.join_some]
  · next h => rw [List.getElem?_set_ne (Ne.symm h)]

theorem join_set_none {β : Type} (l : List (Option β)) (i j : Nat) :
    (l.set i none)[j]?.join = if j = i then none else l[j]?.join := by
  rcases Nat.lt_or_ge i l.length with hlt | hge
  · exact join_set hlt none j
  · rw [List.set_eq_of_length_le hge]
    split
    · next h => rw [h, List.getElem?_eq_none hge, Option.join_none]
    · rfl

theorem join_modify {β : Type} (l : List (Option β)) (i : Nat) (f : β → β) (j : Nat) :
    (l.modify i (Option.map f))[j]?.join = if j = i then l[j]?.join.map f else l[j]?.join := by
  rw [List.getElem?_modify]
  by_cases h : j = i
  · rw [if_pos h, h]
    rcases l[i]? with _ | _ | x <;> simp
  · rw [if_neg h]
    rcases l[j]? with _ | _ | x <;> simp [Ne.symm h]

theorem join_lt {β : Type} {l : List (Option β)} {i : Nat} {x : β} (h : l[i]?.join = some x) :
    i < l.length := (List.getElem?_eq_some_iff.mp (Option.join_eq_some_iff.mp h)).1

/-- A loop over a list, at an index. -/
theorem drop_cons {β : Type} {l rest : List β} {n : Nat} {x : β} (h : l.drop n = x :: rest) :
    l[n]? = some x ∧ l.drop (n + 1) = rest := by
  constructor
  · rw [← Nat.add_zero n, ← List.getElem?_drop, h, List.getElem?_cons_zero]
  · rw [← List.drop_drop, h, List.drop_one, List.tail_cons]

namespace Subscriber

variable {cfg : SubscriberConfig} {s s' : Subscriber}

/-! ## Commands -/

theorem release_cases {remote : ChannelOtherEnd} (h : s.release remote = some s') :
    (s.flows[remote.localFlowIndex]?.join = none ∧ s' = s) ∨
      ∃ flow rc, s.flows[remote.localFlowIndex]?.join = some flow ∧
        flow.channelsRefcount[remote.channelInFlow]? = some rc ∧
        s' = { s with flows := s.flows.set remote.localFlowIndex (some { flow with
          channelsRefcount := flow.channelsRefcount.set remote.channelInFlow (rc - 1) }) } := by
  unfold release at h
  split at h
  · cases h
  · next hflow =>
      obtain rfl := Option.some.inj h
      exact .inl ⟨by rw [hflow, Option.join_some], rfl⟩
  · next flow hflow =>
      split at h
      · cases h
      · next rc hrc =>
          obtain rfl := Option.some.inj h
          exact .inr ⟨flow, rc, by rw [hflow, Option.join_some], hrc, rfl⟩

/-- Leaving a channel: what happens to the flow it was connected to. -/
def leave (cfg : SubscriberConfig) (s : Subscriber) (ch : Nat) (sub : ChannelSubscription) :
    Option Subscriber :=
  match sub.remote with
  | none => some s
  | some remote => (s.spawn (cfg.buffering.disconnectChannel ch remote.localFlowIndex
      remote.channelInFlow)).release remote

theorem unsubscribe_cases {ch : Nat} {removeFromInfo : Bool}
    (h : s.unsubscribe cfg ch removeFromInfo = some s') :
    ch < s.channels.length ∧ ((s.channels[ch]?.join = none ∧ s' = s) ∨
      ∃ sub s₁, s.channels[ch]?.join = some sub ∧ s.leave cfg ch sub = some s₁ ∧
        s' = { s₁ with
          channels := s₁.channels.set ch none
          subscriptionsInfo := if removeFromInfo then s₁.subscriptionsInfo.set ch none
            else s₁.subscriptionsInfo }) := by
  unfold unsubscribe at h
  split at h
  · cases h
  · next hch =>
      obtain rfl := Option.some.inj h
      exact ⟨(List.getElem?_eq_some_iff.mp hch).1, .inl ⟨by rw [hch, Option.join_some], rfl⟩⟩
  · next sub hch =>
      obtain ⟨s₁, hleave, rfl⟩ := Option.map_eq_some_iff.mp h
      refine ⟨(List.getElem?_eq_some_iff.mp hch).1,
        .inr ⟨sub, s₁, by rw [hch, Option.join_some], hleave, ?_⟩⟩
      cases removeFromInfo <;> rfl

theorem subscribe_cases {ch : Nat} {txChannelName txHostname : String}
    (h : s.subscribe cfg ch txChannelName txHostname = some s') :
    ch < s.channels.length ∧ ∃ s₁,
      ((s.channels[ch]?.join = none ∧ s₁ = s) ∨ s.unsubscribe cfg ch false = some s₁) ∧
      s' = { s₁ with
        channels := s₁.channels.set ch (some ⟨txChannelName, txHostname, none⟩)
        needsResolving := true
        resolveNow := true } := by
  unfold subscribe at h
  split at h
  · cases h
  · next channel hch =>
      obtain ⟨s₁, h₁, rfl⟩ := Option.map_eq_some_iff.mp h
      refine ⟨(List.getElem?_eq_some_iff.mp hch).1, s₁, ?_, rfl⟩
      cases channel with
      | none =>
          obtain rfl := Option.some.inj h₁
          exact .inl ⟨by rw [hch, Option.join_some], rfl⟩
      | some sub => exact .inr h₁

/-! ## Updates -/

/-- The flow a channel has been connected to. -/
def occupy (cfg : SubscriberConfig) (s : Subscriber) (now : Clock) (remote : ChannelOtherEnd)
    (flow : RxFlow) (chi : Nat) (rc : Int) (rbOutput : Option RingId) : RxFlow :=
  { flow with
    txChannels := flow.txChannels.set remote.channelInFlow (some remote.txChannelId)
    channelsRefcount := flow.channelsRefcount.set remote.channelInFlow (rc + 1)
    channelsRbOutputs := flow.channelsRbOutputs.set remote.channelInFlow
      (cfg.buffering.connectChannel (.owned s.nextRing now) rbOutput chi flow.latencySamples).1 }

/-- The tasks that connecting a channel spawns. -/
def connectTasks (cfg : SubscriberConfig) (s : Subscriber) (now : Clock) (remote : ChannelOtherEnd)
    (flow : RxFlow) (chi : Nat) (rbOutput : Option RingId) : List Task :=
  let (_, sink, tasks) := cfg.buffering.connectChannel (.owned s.nextRing now) rbOutput chi
    flow.latencySamples
  tasks ++ sink.toList.map (.receiverConnect remote.localFlowIndex remote.channelInFlow chi ·)

theorem connect_cases {now : Clock} {remote : ChannelOtherEnd} {chi : Nat}
    (h : s.connect cfg now remote chi = some s') :
    ∃ sub flow, s.channels[chi]?.join = some sub ∧
      s.flows[remote.localFlowIndex]?.join = some flow ∧
      ((flow.txChannels.length ≤ remote.channelInFlow ∧ s' = s) ∨
        remote.channelInFlow < flow.txChannels.length ∧ ∃ rc rbOutput,
          flow.channelsRefcount[remote.channelInFlow]? = some rc ∧
          flow.channelsRbOutputs[remote.channelInFlow]? = some rbOutput ∧
          s' = { s with
            flows := s.flows.set remote.localFlowIndex
              (some (s.occupy cfg now remote flow chi rc rbOutput))
            channels := s.channels.set chi (some { sub with remote := some remote })
            subscriptionsInfo := s.subscriptionsInfo.set chi
              (some ⟨sub.txChannelName, sub.txHostname, .inProgress⟩)
            nextRing := s.nextRing + 1
            spawned := s.spawned ++ s.connectTasks cfg now remote flow chi rbOutput }) := by
  unfold connect at h
  obtain ⟨sub, hsub, h⟩ := Option.bind_eq_some_iff.mp h
  obtain ⟨flow, hflow, h⟩ := Option.bind_eq_some_iff.mp h
  refine ⟨sub, flow, hsub, hflow, ?_⟩
  split at h
  · next hge =>
      obtain rfl := Option.some.inj h
      exact .inl ⟨hge, rfl⟩
  · next hlt =>
      obtain ⟨rc, hrc, h⟩ := Option.bind_eq_some_iff.mp h
      obtain ⟨rbOutput, hrb, h⟩ := Option.bind_eq_some_iff.mp h
      obtain rfl := Option.some.inj h
      exact .inr ⟨Nat.not_le.mp hlt, rc, rbOutput, hrc, hrb, by rw [List.append_assoc]; rfl⟩

theorem applyUpdate_cases {now : Clock} {upd : ChannelSourceUpdate}
    (h : s.applyUpdate cfg now upd = some s') :
    upd.localChannelIndices.foldlM (connect cfg now upd.remote) s = some s' := by
  unfold applyUpdate at h
  split at h
  · cases h
  split at h
  · exact h
  · cases h

theorem txFail_cases {chi : Nat} (h : s.txFail chi = some s') :
    (s.subscriptionsInfo[chi]?.join).isSome ∧ s' = s.setStatus chi .txFail := by
  unfold txFail at h
  split at h
  · next hinfo =>
      rw [hinfo]
      exact ⟨rfl, (Option.some.inj h).symm⟩
  · cases h

end Subscriber

end Inferno
