import Inferno.SubscriberSteps

/-!
# What the worker spawns

The tasks that commands and the scan hand to `tokio::spawn`, and the flows the
scan gives up: each is either to be destroyed by the worker or has a task that
removes its socket.
-/

namespace Inferno

open Partial

/-- The index whose socket a task removes. -/
def Task.removal? : Task → Option Nat
  | .removeSocket f => some f
  | _ => none

/-- A task of `disconnect_channel`. -/
def Task.IsDisconnect (b : Buffering) (t : Task) : Prop :=
  ∃ chi f c, t ∈ b.disconnectChannel chi f c

theorem Task.IsDisconnect.cases {b : Buffering} {t : Task} (h : t.IsDisconnect b) :
    (b = .owned ∧ ∃ chi, t = .collectorDisconnect chi) ∨
      b = .external ∧ ∃ chi f c, t = .receiverDisconnect f c chi (.external chi) := by
  obtain ⟨chi, f, c, h⟩ := h
  cases b with
  | owned => exact .inl ⟨rfl, chi, List.mem_singleton.mp h⟩
  | external => exact .inr ⟨rfl, chi, f, c, List.mem_singleton.mp h⟩

theorem Task.IsDisconnect.removal {b : Buffering} {t : Task} (h : t.IsDisconnect b) :
    t.removal? = none := by
  rcases h.cases with ⟨_, _, rfl⟩ | ⟨_, _, _, _, rfl⟩ <;> rfl

/-- A flow that the scan knows how to remove. -/
def RxFlow.granted (flow : RxFlow) : Bool :=
  match flow.source with
  | .unicast _ _ handle => handle.isSome
  | .multicast _ => true

namespace Subscriber

variable {cfg : SubscriberConfig} {s s' : Subscriber}

/-! ## Commands -/

/-! ## The scan -/

/-- The indices of the flows that are given up, from an index on. -/
def removedFrom (env : ScanEnv) : Nat → List (Option RxFlow) → List Nat
  | _, [] => []
  | n, none :: flows => removedFrom env (n + 1) flows
  | n, some flow :: flows =>
      if isRemoved env n flow then n :: removedFrom env (n + 1) flows
      else removedFrom env (n + 1) flows

theorem mem_removedFrom {env : ScanEnv} {flows rest : List (Option RxFlow)} {n i : Nat}
    (hdrop : flows.drop n = rest) :
    i ∈ removedFrom env n rest ↔
      n ≤ i ∧ ∃ flow, flows[i]?.join = some flow ∧ isRemoved env i flow = true := by
  induction rest generalizing n with
  | nil =>
      rw [removedFrom]
      refine ⟨fun h => (by cases h), fun ⟨hn, flow, hflow, _⟩ => ?_⟩
      have hlt := join_lt hflow
      have hle := List.drop_eq_nil_iff.mp hdrop
      omega
  | cons o rest ih =>
      obtain ⟨hget, hdrop'⟩ := drop_cons hdrop
      have hnext := ih hdrop'
      have hsplit : n ≤ i ↔ i = n ∨ n + 1 ≤ i := by omega
      cases o with
      | none =>
          rw [removedFrom, hnext, hsplit, or_and_right]
          refine ⟨.inr, fun h => h.resolve_left ?_⟩
          rintro ⟨rfl, flow, hflow, _⟩
          rw [hget, Option.join_some] at hflow
          cases hflow
      | some flow =>
          have hn : (i = n ∧ ∃ flow, flows[i]?.join = some flow ∧ isRemoved env i flow = true) ↔
              i = n ∧ isRemoved env n flow = true := by
            constructor
            · rintro ⟨rfl, flow', hflow', hremoved⟩
              rw [hget, Option.join_some] at hflow'
              obtain rfl := Option.some.inj hflow'
              exact ⟨rfl, hremoved⟩
            · rintro ⟨rfl, hremoved⟩
              exact ⟨rfl, flow, by rw [hget, Option.join_some], hremoved⟩
          rw [removedFrom, hsplit, or_and_right, hn]
          split
          · next hremoved => rw [List.mem_cons, hnext, and_iff_left hremoved]
          · next hremoved =>
              rw [hnext]
              exact ⟨.inr, fun h => h.resolve_left fun hn => hremoved hn.2⟩

theorem removedFrom_nodup (env : ScanEnv) (flows : List (Option RxFlow)) :
    (removedFrom env 0 flows).Nodup := by
  suffices h : ∀ (rest : List (Option RxFlow)) (n : Nat), flows.drop n = rest →
      (removedFrom env n rest).Nodup from h flows 0 List.drop_zero
  intro rest
  induction rest with
  | nil => exact fun _ _ => List.nodup_nil
  | cons o rest ih =>
      intro n hdrop
      obtain ⟨_, hdrop'⟩ := drop_cons hdrop
      cases o with
      | none => exact ih (n + 1) hdrop'
      | some flow =>
          rw [removedFrom]
          split
          · refine List.nodup_cons.mpr ⟨fun hmem => ?_, ih (n + 1) hdrop'⟩
            have hle := ((mem_removedFrom hdrop').mp hmem).1
            omega
          · exact ih (n + 1) hdrop'

/-- A scan's tasks, so far: those of channels that are orphaned, and removals. -/
def ScanSpawns (cfg : SubscriberConfig) (s s' : Subscriber) (removed : List Nat) : Prop :=
  ∃ extra, s'.spawned = s.spawned ++ extra ∧
    (∀ t ∈ extra, t.IsDisconnect cfg.buffering ∨ ∃ f, t = .removeSocket f) ∧
    extra.filterMap Task.removal? = removed

theorem ScanSpawns.refl (s : Subscriber) : ScanSpawns cfg s s [] :=
  ⟨[], (List.append_nil _).symm, fun _ ht => (by cases ht), rfl⟩

theorem ScanSpawns.trans {s'' : Subscriber} {l l' : List Nat} (h : ScanSpawns cfg s s' l)
    (h' : ScanSpawns cfg s' s'' l') : ScanSpawns cfg s s'' (l ++ l') := by
  obtain ⟨extra, hs, hall, hl⟩ := h
  obtain ⟨extra', hs', hall', hl'⟩ := h'
  refine ⟨extra ++ extra', by rw [hs', hs, List.append_assoc], fun t ht => ?_, ?_⟩
  · rcases List.mem_append.mp ht with ht | ht
    · exact hall t ht
    · exact hall' t ht
  · rw [List.filterMap_append, hl, hl']

theorem orphan_spawns (f : Nat) (s : Subscriber) (chi : Nat) :
    ScanSpawns cfg s (s.orphan cfg f chi) [] := by
  unfold orphan
  split
  · exact .refl s
  · next c _ =>
      have hall : ∀ t ∈ cfg.buffering.disconnectChannel chi f c, t.IsDisconnect cfg.buffering :=
        fun t ht => ⟨chi, f, c, ht⟩
      refine ⟨_, rfl, fun t ht => .inl (hall t ht), ?_⟩
      exact List.filterMap_eq_nil_iff.mpr fun t ht => (hall t ht).removal

theorem scanChannels_spawns (cfg : SubscriberConfig) (env : ScanEnv) (s : Subscriber) (f : Nat)
    (flow : RxFlow) :
    ScanSpawns cfg s (s.scanChannels cfg env f flow) [] := by
  unfold scanChannels
  split
  · exact foldl_inv (I := fun v => ScanSpawns cfg s v [])
      (fun v chi _ hv => hv.trans (orphan_spawns f v chi)) (.refl s)
  split
  · refine foldl_inv (I := fun v => ScanSpawns cfg s v []) (fun v chi _ hv => ?_) (.refl s)
    refine hv.trans ⟨[], ?_, fun _ ht => (by cases ht), rfl⟩
    unfold markReceiving
    rw [List.append_nil]
    split <;> rfl
  · exact .refl s

theorem scanFlow_spawns {env : ScanEnv} {f : Nat} {flow : RxFlow} {destroy : List DestroyFlow}
    (h : s.scanFlow cfg env f flow = some (s', destroy)) :
    (isRemoved env f flow = true → flow.granted = true) ∧ ∃ removed,
      ScanSpawns cfg s s' removed ∧
      destroy.map DestroyFlow.flowIndex ++ removed = if isRemoved env f flow then [f] else [] := by
  have hspawns := scanChannels_spawns cfg env s f flow
  unfold scanFlow at h
  dsimp only at h
  split at h
  · next hremoved =>
      rw [if_pos hremoved]
      split at h
      · cases h
      · next hsource =>
          cases h
          exact ⟨fun _ => by rw [RxFlow.granted, hsource]; rfl, [], hspawns, rfl⟩
      · next hsource =>
          cases h
          refine ⟨fun _ => by rw [RxFlow.granted, hsource], [f], ?_, rfl⟩
          exact hspawns.trans ⟨[.removeSocket f], rfl,
            fun t ht => .inr ⟨f, List.mem_singleton.mp ht⟩, rfl⟩
  · next hremoved =>
      cases h
      rw [if_neg hremoved]
      exact ⟨fun hcon => absurd hcon hremoved, [], hspawns, rfl⟩

/-- The flows that are given up, one after the other. -/
theorem scanLoop_spawns {env : ScanEnv} {flows rest : List (Option RxFlow)} {n : Nat}
    {destroy : List DestroyFlow} (hdrop : flows.drop n = rest)
    (h : s.scanLoop cfg env n rest = some (s', destroy)) :
    (∀ i flow, n ≤ i → flows[i]?.join = some flow → isRemoved env i flow = true →
      flow.granted = true) ∧ ∃ removed, ScanSpawns cfg s s' removed ∧
      (destroy.map DestroyFlow.flowIndex ++ removed).Perm (removedFrom env n rest) := by
  induction rest generalizing s n destroy with
  | nil =>
      cases h
      refine ⟨fun i flow hn hflow _ => ?_, [], .refl _, .refl _⟩
      have hlt := join_lt hflow
      have hle := List.drop_eq_nil_iff.mp hdrop
      omega
  | cons o rest ih =>
      obtain ⟨hget, hdrop'⟩ := drop_cons hdrop
      cases o with
      | none =>
          obtain ⟨hgranted, hrest⟩ := ih hdrop' h
          refine ⟨fun i flow hn hflow hremoved => ?_, hrest⟩
          have hne : i ≠ n := by
            rintro rfl
            rw [hget, Option.join_some] at hflow
            cases hflow
          exact hgranted i flow (by omega) hflow hremoved
      | some flow =>
          rw [scanLoop] at h
          obtain ⟨⟨s₁, d₁⟩, h₁, h⟩ := Option.bind_eq_some_iff.mp h
          obtain ⟨⟨s₂, d₂⟩, h₂, h⟩ := Option.bind_eq_some_iff.mp h
          cases h
          obtain ⟨hgranted₁, removed₁, hspawns₁, heq₁⟩ := scanFlow_spawns h₁
          obtain ⟨hgranted, removed, hspawns, hperm⟩ := ih hdrop' h₂
          refine ⟨fun i flow' hn hflow' hremoved => ?_, removed₁ ++ removed,
            hspawns₁.trans hspawns, ?_⟩
          · by_cases hi : i = n
            · subst hi
              rw [hget, Option.join_some] at hflow'
              obtain rfl := Option.some.inj hflow'
              exact hgranted₁ hremoved
            · exact hgranted i flow' (by omega) hflow' hremoved
          · have hfirst : (d₁.map DestroyFlow.flowIndex ++ removed₁) ++ removedFrom env (n + 1) rest =
                removedFrom env n (some flow :: rest) := by
              rw [heq₁, removedFrom]
              split <;> rfl
            rw [← hfirst, List.map_append]
            refine List.Perm.trans ?_ (hperm.append_left _)
            rw [List.append_assoc, List.append_assoc]
            refine List.Perm.append_left _ ?_
            rw [← List.append_assoc, ← List.append_assoc]
            exact List.perm_append_comm.append_right _

theorem scanFlows_spawns {env : ScanEnv} {destroy : List DestroyFlow}
    (h : s.scanFlows cfg env = some (s', destroy)) :
    (∀ i flow, s.flows[i]?.join = some flow → isRemoved env i flow = true →
      flow.granted = true) ∧ ∃ removed, ScanSpawns cfg s s' removed ∧
      (destroy.map DestroyFlow.flowIndex ++ removed).Perm (removedFrom env 0 s.flows) := by
  unfold scanFlows at h
  obtain ⟨⟨s₁, d₁⟩, h₁, h⟩ := Option.bind_eq_some_iff.mp h
  cases h
  obtain ⟨hgranted, removed, hspawns, hperm⟩ := scanLoop_spawns (List.drop_zero (l := s.flows)) h₁
  exact ⟨fun i flow => hgranted i flow (Nat.zero_le i), removed, hspawns, hperm⟩

end Subscriber

end Inferno
