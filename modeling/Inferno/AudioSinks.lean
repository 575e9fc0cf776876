import Inferno.AudioEnd
import Inferno.Lib.Outbox
import Inferno.ReceiverSockets

/-!
# A ring among the sinks

The receiver's sockets as far as one ring is concerned: which slots there are
and how often the ring is among the sinks of each (`FlowsReceiver.sinks`).
Every command changes this view in one place (`handle_sinks`), so the view at
the end of the queue is known when the command is sent (`Routed`).
-/

namespace Inferno

open Partial

/-- For each socket, the number of its slots and how often the ring is among
the sinks of a slot. -/
abbrev SinkView := Nat → Option (Nat × (Nat → Nat))

def RxSocket.sinks (socket : RxSocket) (ring : RingId) : Nat × (Nat → Nat) :=
  (socket.channels.length, socket.sinkCount ring)

def FlowsReceiver.sinks (rx : FlowsReceiver) (ring : RingId) : SinkView := fun f =>
  (rx.sockets[f]?.join).map (RxSocket.sinks · ring)

/-- The counts of a slot change. -/
def SinkView.recount (v : SinkView) (f : Nat) (g : Nat × (Nat → Nat) → Nat → Nat) : SinkView :=
  Function.update v f ((v f).map fun x => (x.1, g x))

/-- What a command makes of the view. -/
def RxCommand.afterSinks (ring : RingId) (v : SinkView) : RxCommand → SinkView
  | .addSocket index socket => Function.update v index (some (socket.sinks ring))
  | .removeSocket index => Function.update v index none
  | .connectChannel index c sink => v.recount index fun x =>
      if sink = ring ∧ c < x.1 then Function.update x.2 c (x.2 c + 1) else x.2
  | .disconnectChannel index c rbShared => v.recount index fun x =>
      if rbShared = ring then Function.update x.2 c (x.2 c - 1) else x.2

/-- The vectors of sinks that are prepared are empty. -/
def RxSocket.Prepared (socket : RxSocket) : Prop := ∀ v ∈ socket.emptySinksVecs, v = []

/-- So are those of a socket that is to be added. -/
def RxCommand.Prepared : RxCommand → Prop
  | .addSocket _ socket => socket.Prepared
  | .removeSocket _ | .connectChannel .. | .disconnectChannel .. => True

def FlowsReceiver.Prepared (rx : FlowsReceiver) : Prop :=
  (∀ (f : Nat) socket, rx.sockets[f]?.join = some socket → socket.Prepared) ∧
    ∀ c ∈ rx.commands, c.Prepared

namespace FlowsReceiver

variable {rx rx' : FlowsReceiver} {ring : RingId}

theorem swapRemove_perm {β : Type} {l : List β} {i : Nat} (hi : i < l.length) :
    (swapRemove l i).Perm (l.eraseIdx i) := by
  have hne : l ≠ [] := List.ne_nil_of_length_pos (Nat.zero_lt_of_lt hi)
  obtain ⟨last, hlast⟩ : ∃ last, l.getLast? = some last := ⟨_, List.getLast?_eq_some_getLast hne⟩
  have hend : (l.set i last).getLast? = some last := by
    rw [List.getLast?_eq_getElem?] at hlast ⊢
    rw [List.length_set, List.getElem?_set]
    by_cases hlen : i = l.length - 1
    · rw [if_pos hlen, if_pos (hlen ▸ hi)]
    · rw [if_neg hlen, hlast]
  obtain ⟨front, hfront⟩ := List.getLast?_eq_some_iff.mp hend
  have hperm := List.set_perm_cons_eraseIdx hi last
  unfold swapRemove
  rw [hlast]
  dsimp only
  rw [hfront] at hperm ⊢
  rw [List.dropLast_concat]
  exact (List.perm_cons last).mp ((List.perm_append_singleton last front).symm.trans hperm)

/-- What is removed, and what is left. -/
theorem perm_cons_swapRemove {β : Type} {l : List β} {i : Nat} {x : β} (h : l[i]? = some x) :
    l.Perm (x :: swapRemove l i) := by
  obtain ⟨hi, rfl⟩ := List.getElem?_eq_some_iff.mp h
  exact (((swapRemove_perm hi).cons _).trans (List.getElem_cons_eraseIdx_perm hi)).symm

/-! ## Slots -/

theorem sinkCount_set {socket : RxSocket} {c : Nat} (hc : c < socket.channels.length)
    (ch : RxChannel RingId) :
    RxSocket.sinkCount { socket with channels := socket.channels.set c (some ch) } ring =
      Function.update (socket.sinkCount ring) c (ch.sinks.count ring) := by
  funext c'
  rw [RxSocket.sinkCount]
  dsimp only
  rw [join_set hc]
  by_cases hc' : c' = c
  · rw [if_pos hc', hc', Function.update_self]
  · rw [if_neg hc', Function.update_of_ne hc', RxSocket.sinkCount]

theorem pushSink_sinks {socket socket' : RxSocket} {c : Nat} {sink : RingId} {shift : Clock}
    (hprepared : socket.Prepared) (h : pushSink socket c sink shift = some socket') :
    socket'.Prepared ∧ socket'.sinks ring = (socket.channels.length,
      if sink = ring then Function.update (socket.sinkCount ring) c (socket.sinkCount ring c + 1)
      else socket.sinkCount ring) := by
  have hcount : ∀ sinks : List RingId, (sinks ++ [sink]).count ring =
      sinks.count ring + if sink = ring then 1 else 0 := by
    intro sinks
    rw [List.count_append, List.count_singleton]
    simp only [beq_iff_eq]
  have hsame : ∀ n, n = socket.sinkCount ring c + (if sink = ring then 1 else 0) →
      Function.update (socket.sinkCount ring) c n = if sink = ring then
        Function.update (socket.sinkCount ring) c (socket.sinkCount ring c + 1)
        else socket.sinkCount ring := by
    rintro _ rfl
    by_cases hring : sink = ring
    · rw [if_pos hring, if_pos hring]
    · rw [if_neg hring, if_neg hring, Nat.add_zero, Function.update_eq_self]
  unfold pushSink at h
  split at h
  · cases h
  · next channel hchannel =>
      cases h
      have hc := (List.getElem?_eq_some_iff.mp hchannel).1
      have hold : socket.sinkCount ring c = channel.sinks.count ring := by
        rw [RxSocket.sinkCount, hchannel, Option.join_some]
      refine ⟨hprepared, Prod.ext List.length_set ?_⟩
      exact (sinkCount_set hc _).trans (hsame _ (by rw [hcount, hold]))
  · next hchannel =>
      split at h
      · cases h
      · next sinks hsinks =>
          cases h
          have hc := (List.getElem?_eq_some_iff.mp hchannel).1
          have hempty := hprepared sinks (List.mem_of_getLast? hsinks)
          have hold : socket.sinkCount ring c = sinks.count ring := by
            rw [RxSocket.sinkCount, hchannel, Option.join_some, hempty]
            rfl
          refine ⟨fun v hv => hprepared v (List.mem_of_mem_dropLast hv),
            Prod.ext List.length_set ?_⟩
          exact (sinkCount_set hc _).trans (hsame _ (by rw [hcount, hold]))

/-- One occurrence less, if it is the ring's. -/
theorem count_swapRemove {l : List RingId} {i : Nat} {x : RingId}
    (hi : l.findIdx? (· = x) = some i) :
    (swapRemove l i).count ring = l.count ring - if x = ring then 1 else 0 := by
  obtain ⟨hlt, hget, _⟩ := List.findIdx?_eq_some_iff_getElem.mp hi
  have hx : l[i] = x := by simpa using hget
  have hperm := (List.getElem_cons_eraseIdx_perm hlt).count_eq ring
  rw [hx, List.count_cons] at hperm
  rw [(swapRemove_perm hlt).count_eq ring, ← hperm]
  simp only [beq_iff_eq]
  omega

/-! ## The thread -/

theorem recount_same {v : SinkView} {f : Nat} {g : Nat × (Nat → Nat) → Nat → Nat}
    (h : ∀ x, v f = some x → g x = x.2) : v.recount f g = v := by
  rw [SinkView.recount]
  cases hv : v f with
  | none => rw [Option.map_none, ← hv, Function.update_eq_self]
  | some x => rw [Option.map_some, h x hv, ← hv, Function.update_eq_self]

theorem sinks_set {f : Nat} (hf : f < rx.sockets.length) (o : Option RxSocket) (f' : Nat) :
    ((rx.sockets.set f o)[f']?.join).map (RxSocket.sinks · ring) =
      Function.update (rx.sinks ring) f (o.map (RxSocket.sinks · ring)) f' := by
  rw [join_set hf]
  by_cases hf' : f' = f
  · rw [if_pos hf', hf', Function.update_self]
  · rw [if_neg hf', Function.update_of_ne hf']
    rfl

/-- The thread does to the view what a command says. -/
theorem handle_sinks {now : Option Clock} {ringSize : RingId → Nat} {c : RxCommand}
    (hprepared : ∀ (f : Nat) socket, rx.sockets[f]?.join = some socket → socket.Prepared)
    (hc : c.Prepared) (h : rx.handle now ringSize c = some rx') :
    (∀ (f : Nat) socket, rx'.sockets[f]?.join = some socket → socket.Prepared) ∧
      rx'.sinks ring = c.afterSinks ring (rx.sinks ring) := by
  have hset : ∀ {f : Nat} {socket : RxSocket}, f < rx.sockets.length → socket.Prepared →
      ∀ (f' : Nat) socket', (rx.sockets.set f (some socket))[f']?.join = some socket' →
        socket'.Prepared := by
    intro f socket hf hsocket f' socket' hget
    rw [join_set hf] at hget
    split at hget
    · rw [← Option.some.inj hget]
      exact hsocket
    · exact hprepared f' socket' hget
  have hview : ∀ {f : Nat} {socket : RxSocket}, rx.sockets[f]?.join = some socket →
      rx.sinks ring f = some (socket.sinks ring) := by
    intro f socket hsocket
    rw [sinks, hsocket, Option.map_some]
  cases handled_of_handle h with
  | added hindex => exact ⟨hset hindex hc, funext fun f => sinks_set hindex _ f⟩
  | removed hsocket =>
      refine ⟨fun f' socket' hget => ?_, funext fun f => sinks_set (join_lt hsocket) _ f⟩
      dsimp only at hget
      rw [join_set_none] at hget
      split at hget
      · cases hget
      · exact hprepared f' socket' hget
  | notConnected hmiss =>
      refine ⟨hprepared, (recount_same fun x hx => if_neg fun hlt => ?_).symm⟩
      obtain ⟨socket, hsocket, rfl⟩ := Option.map_eq_some_iff.mp hx
      exact Nat.not_lt.mpr (hmiss socket hsocket) hlt.2
  | connected hsocket hslot hpush =>
      obtain ⟨hsocket', hsinks⟩ := @pushSink_sinks ring _ _ _ _ _ (hprepared _ _ hsocket) hpush
      refine ⟨hset (join_lt hsocket) hsocket', funext fun f =>
        (sinks_set (join_lt hsocket) _ f).trans ?_⟩
      rw [RxCommand.afterSinks, SinkView.recount, hview hsocket, Option.map_some, Option.map_some,
        hsinks]
      simp only [RxSocket.sinks, hslot, and_true]
  | @notDisconnected index c rbShared hmiss =>
      -- a ring that is not there is not taken
      refine ⟨hprepared, (recount_same fun x hx => ?_).symm⟩
      obtain ⟨socket, hsocket, rfl⟩ := Option.map_eq_some_iff.mp hx
      by_cases hring : rbShared = ring
      · have hzero : (socket.sinks ring).2 c = 0 := by
          show socket.sinkCount ring c = 0
          rw [RxSocket.sinkCount]
          cases hch : socket.channels[c]?.join with
          | none => rfl
          | some ch => exact List.count_eq_zero.mpr (hring ▸ hmiss socket ch hsocket hch)
        rw [if_pos hring, hzero, Nat.zero_sub, ← hzero, Function.update_eq_self]
      · exact if_neg hring
  | @disconnected index c i rbShared socket ch hsocket hch hi =>
      have hold : socket.sinkCount ring c = ch.sinks.count ring := by
        rw [RxSocket.sinkCount, hch]
      refine ⟨hset (join_lt hsocket) (hprepared index socket hsocket), funext fun f =>
        (sinks_set (join_lt hsocket) _ f).trans ?_⟩
      rw [RxCommand.afterSinks, SinkView.recount, hview hsocket, Option.map_some, Option.map_some,
        RxSocket.sinks, RxSocket.sinks, List.length_set, sinkCount_set (join_lt hch),
        count_swapRemove hi, ← hold]
      by_cases hring : rbShared = ring
      · rw [if_pos hring, if_pos hring]
      · rw [if_neg hring, if_neg hring, Nat.sub_zero, Function.update_eq_self]

/-! ## The end of the queue -/

/-- The view when the commands are done. -/
def routed (rx : FlowsReceiver) (ring : RingId) : SinkView :=
  Outbox.drained (RxCommand.afterSinks ring) (rx.sinks ring) rx.commands

/-- How often the ring will be among the sinks of a slot. -/
def willCount (rx : FlowsReceiver) (ring : RingId) (p : Nat × Nat) : Nat :=
  ((rx.routed ring p.1).map fun x => x.2 p.2).getD 0

/-- The number of slots that is noted. -/
def slotsNoted (rx : FlowsReceiver) (f : Nat) : Option Nat :=
  (rx.flowsInfo[f]?.join).map fun info => info.channelsMap.length

/-- The commands lead to the slots that are noted, and no ring is in a slot
that there is not. -/
structure Routed (rx : FlowsReceiver) : Prop where
  prepared : rx.Prepared
  slots : ∀ ring f, (rx.routed ring f).map Prod.fst = rx.slotsNoted f
  inside : ∀ ring f x, rx.routed ring f = some x → ∀ c, x.1 ≤ c → x.2 c = 0

theorem Routed.hasSlot_iff (h : rx.Routed) (ring : RingId) (p : Nat × Nat) :
    rx.hasSlot p = true ↔ ∃ x, rx.routed ring p.1 = some x ∧ p.2 < x.1 := by
  have hslots := h.slots ring p.1
  unfold slotsNoted at hslots
  unfold hasSlot
  cases hinfo : rx.flowsInfo[p.1]?.join with
  | none =>
      rw [hinfo, Option.map_none, Option.map_eq_none_iff] at hslots
      rw [hslots]
      simp
  | some info =>
      rw [hinfo, Option.map_some] at hslots
      obtain ⟨x, hx, hlen⟩ := Option.map_eq_some_iff.mp hslots
      rw [hx, Option.any_some, decide_eq_true_iff, ← hlen]
      simp

theorem Routed.willCount_eq_zero (h : rx.Routed) {ring : RingId} {p : Nat × Nat}
    (hp : rx.hasSlot p = false) : rx.willCount ring p = 0 := by
  unfold willCount
  cases hx : rx.routed ring p.1 with
  | none => rfl
  | some x =>
      rw [Option.map_some, Option.getD_some]
      refine h.inside ring p.1 x hx p.2 (Nat.not_lt.mp fun hlt => ?_)
      rw [(h.hasSlot_iff ring p).mpr ⟨x, hx, hlt⟩] at hp
      cases hp

/-- When no command is left the ring is where it will be. -/
theorem willCount_of_done (hdone : rx.commands = []) (ring : RingId) (f c : Nat) :
    rx.willCount ring (f, c) = rx.sinkCount ring f c := by
  rw [willCount, routed, hdone, Outbox.drained_nil, sinks, sinkCount]
  cases rx.sockets[f]?.join <;> rfl

/-- A call that sends a command. -/
theorem routed_send {c : RxCommand} (hcommands : rx'.commands = rx.commands ++ [c])
    (hsockets : rx'.sockets = rx.sockets) (ring : RingId) :
    rx'.routed ring = c.afterSinks ring (rx.routed ring) := by
  have hsinks : rx'.sinks ring = rx.sinks ring := by
    funext f
    rw [sinks, sinks, hsockets]
  rw [routed, routed, hsinks, hcommands, Outbox.drained_snoc]

theorem Prepared.send (h : rx.Prepared) {c : RxCommand} (hc : c.Prepared)
    (hcommands : rx'.commands = rx.commands ++ [c]) (hsockets : rx'.sockets = rx.sockets) :
    rx'.Prepared := by
  refine ⟨fun f socket hget => h.1 f socket (hsockets ▸ hget), fun c' hc' => ?_⟩
  rw [hcommands] at hc'
  rcases List.mem_append.mp hc' with hc' | hc'
  · exact h.2 c' hc'
  · rw [List.mem_singleton.mp hc']
    exact hc

/-! ## Slots that change -/

theorem recount_fst (v : SinkView) (f : Nat) (g : Nat × (Nat → Nat) → Nat → Nat) (f' : Nat) :
    (v.recount f g f').map Prod.fst = (v f').map Prod.fst := by
  rw [SinkView.recount]
  by_cases hf : f' = f
  · rw [hf, Function.update_self, Option.map_map]
    rfl
  · rw [Function.update_of_ne hf]

/-- A change of the counts of a socket that keeps to its slots. -/
theorem Routed.recount (h : rx.Routed) {c : RxCommand} {f : Nat}
    {g : RingId → Nat × (Nat → Nat) → Nat → Nat} (hprepared : rx'.Prepared)
    (hslots : ∀ i, rx'.slotsNoted i = rx.slotsNoted i)
    (hcommands : rx'.commands = rx.commands ++ [c]) (hsockets : rx'.sockets = rx.sockets)
    (hafter : ∀ ring v, c.afterSinks ring v = v.recount f (g ring))
    (hinside : ∀ ring x, (∀ c, x.1 ≤ c → x.2 c = 0) → ∀ c, x.1 ≤ c → g ring x c = 0) :
    rx'.Routed := by
  have hrouted := fun ring => (routed_send hcommands hsockets ring).trans (hafter ring _)
  refine ⟨hprepared, fun ring i => ?_, fun ring i x hx => ?_⟩
  · rw [hrouted, recount_fst, hslots]
    exact h.slots ring i
  · rw [hrouted, SinkView.recount] at hx
    by_cases hi : i = f
    · rw [hi, Function.update_self] at hx
      obtain ⟨y, hy, rfl⟩ := Option.map_eq_some_iff.mp hx
      exact hinside ring y (h.inside ring f y hy)
    · rw [Function.update_of_ne hi] at hx
      exact h.inside ring i x hx

/-- The slots that are noted, by their numbers. -/
theorem hasSlot_congr (h : ∀ f, rx'.slotsNoted f = rx.slotsNoted f) (p : Nat × Nat) :
    rx'.hasSlot p = rx.hasSlot p := by
  have hsame := h p.1
  have hany : ∀ v : FlowsReceiver, v.hasSlot p = (v.slotsNoted p.1).any (p.2 < ·) := by
    intro v
    rw [hasSlot, slotsNoted]
    cases v.flowsInfo[p.1]?.join <;> rfl
  rw [hany, hany, hsame]

theorem willCount_recount {f : Nat} {g : Nat × (Nat → Nat) → Nat → Nat} {ring : RingId}
    (h : rx'.routed ring = (rx.routed ring).recount f g) (p : Nat × Nat) :
    rx'.willCount ring p = ((rx.routed ring p.1).map fun x =>
      if p.1 = f then g x p.2 else x.2 p.2).getD 0 := by
  rw [willCount, h, SinkView.recount]
  by_cases hp : p.1 = f
  · rw [hp, Function.update_self, Option.map_map]
    simp only [if_true]
    rfl
  · rw [Function.update_of_ne hp]
    simp only [hp, if_false]

/-- A bit of the map is set or cleared: the slots stay. -/
theorem slotsNoted_map {f c chi : Nat} {info : RxFlowInfo} {bit : Bool}
    (hinfo : rx.flowsInfo[f]?.join = some info)
    (h : rx'.flowsInfo = rx.flowsInfo.set f (some { info with
      channelsMap := info.channelsMap.modify c (·.set chi bit) })) (i : Nat) :
    rx'.slotsNoted i = rx.slotsNoted i := by
  rw [slotsNoted, slotsNoted, h, join_set (join_lt hinfo)]
  by_cases hi : i = f
  · rw [if_pos hi, hi, hinfo, Option.map_some, Option.map_some, List.length_modify]
  · rw [if_neg hi]

theorem Routed.connectChannel (h : rx.Routed) (f c chi : Nat) (sink : RingId) :
    (rx.connectChannel f c chi sink).Routed ∧
      (∀ p, (rx.connectChannel f c chi sink).hasSlot p = rx.hasSlot p) ∧
      ∀ ring p, (rx.connectChannel f c chi sink).willCount ring p = rx.willCount ring p +
        if rx.hasSlot (f, c) = true ∧ sink = ring ∧ p = (f, c) then 1 else 0 := by
  unfold FlowsReceiver.connectChannel
  rcases rx.mapChannel_cases f c chi true with ⟨hmap, hshort⟩ | ⟨info, hinfo, hlt, hmap⟩
  · have hno : rx.hasSlot (f, c) = false := by
      unfold hasSlot
      cases hinfo : rx.flowsInfo[f]?.join with
      | none => simp
      | some info => simp [hshort info hinfo]
    rw [hmap]
    exact ⟨h, fun _ => rfl, fun ring p => by rw [hno, if_neg fun hcon => by cases hcon.1]; rfl⟩
  · have hyes : rx.hasSlot (f, c) = true := by simp [hasSlot, hinfo, hlt]
    rw [hmap]
    dsimp only
    obtain ⟨rx', hrx', hflows, hcommands, hsockets⟩ : ∃ rx' : FlowsReceiver,
        rx' = { rx with
          flowsInfo := rx.flowsInfo.set f (some { info with
            channelsMap := info.channelsMap.modify c (·.set chi true) })
          commands := rx.commands ++ [.connectChannel f c sink] } ∧
        rx'.flowsInfo = rx.flowsInfo.set f (some { info with
          channelsMap := info.channelsMap.modify c (·.set chi true) }) ∧
        rx'.commands = rx.commands ++ [.connectChannel f c sink] ∧ rx'.sockets = rx.sockets :=
      ⟨_, rfl, rfl, rfl, rfl⟩
    rw [← hrx']
    have hslots := slotsNoted_map hinfo hflows
    have hprepared := @Prepared.send rx rx' h.prepared (.connectChannel f c sink) trivial hcommands
      hsockets
    refine ⟨h.recount hprepared hslots hcommands hsockets
      (fun _ _ => rfl) (fun ring x hx c' hc' => ?_), hasSlot_congr hslots, fun ring p => ?_⟩
    · split
      · next hput =>
          rw [Function.update_of_ne (Nat.ne_of_gt (Nat.lt_of_lt_of_le hput.2 hc')), hx c' hc']
      · exact hx c' hc'
    · obtain ⟨x, hx, hc⟩ := (h.hasSlot_iff ring (f, c)).mp hyes
      rw [willCount_recount (routed_send hcommands hsockets ring), willCount]
      obtain ⟨pf, pc⟩ := p
      dsimp only
      by_cases hf : pf = f
      · subst hf
        rw [hx, Option.map_some, Option.map_some, Option.getD_some, Option.getD_some, if_pos rfl]
        by_cases hring : sink = ring
        · rw [if_pos ⟨hring, hc⟩]
          by_cases hpc : pc = c
          · rw [hpc, Function.update_self, if_pos ⟨hyes, hring, rfl⟩]
          · rw [Function.update_of_ne hpc, if_neg fun hcon => hpc (Prod.mk.inj hcon.2.2).2]
            rfl
        · rw [if_neg fun hcon => hring hcon.1, if_neg fun hcon => hring hcon.2.1]
          rfl
      · rw [if_neg fun hcon => hf (Prod.mk.inj hcon.2.2).1]
        simp only [hf, if_false]
        rfl

theorem Routed.disconnectChannel (h : rx.Routed) (f c chi : Nat) (rbShared : RingId) :
    (rx.disconnectChannel f c chi rbShared).Routed ∧
      (∀ p, (rx.disconnectChannel f c chi rbShared).hasSlot p = rx.hasSlot p) ∧
      ∀ ring p, (rx.disconnectChannel f c chi rbShared).willCount ring p = rx.willCount ring p -
        if rbShared = ring ∧ p = (f, c) then 1 else 0 := by
  unfold FlowsReceiver.disconnectChannel
  rcases rx.mapChannel_cases f c chi false with ⟨hmap, hshort⟩ | ⟨info, hinfo, hlt, hmap⟩
  · have hno : rx.hasSlot (f, c) = false := by
      unfold hasSlot
      cases hinfo : rx.flowsInfo[f]?.join with
      | none => simp
      | some info => simp [hshort info hinfo]
    rw [hmap]
    refine ⟨h, fun _ => rfl, fun ring p => ?_⟩
    by_cases hp : p = (f, c)
    · rw [hp, h.willCount_eq_zero hno, Nat.zero_sub]
    · rw [if_neg fun hcon => hp hcon.2, Nat.sub_zero]
  · rw [hmap]
    dsimp only
    obtain ⟨rx', hrx', hflows, hcommands, hsockets⟩ : ∃ rx' : FlowsReceiver,
        rx' = { rx with
          flowsInfo := rx.flowsInfo.set f (some { info with
            channelsMap := info.channelsMap.modify c (·.set chi false) })
          commands := rx.commands ++ [.disconnectChannel f c rbShared] } ∧
        rx'.flowsInfo = rx.flowsInfo.set f (some { info with
          channelsMap := info.channelsMap.modify c (·.set chi false) }) ∧
        rx'.commands = rx.commands ++ [.disconnectChannel f c rbShared] ∧
        rx'.sockets = rx.sockets := ⟨_, rfl, rfl, rfl, rfl⟩
    rw [← hrx']
    have hslots := slotsNoted_map hinfo hflows
    have hprepared := @Prepared.send rx rx' h.prepared (.disconnectChannel f c rbShared) trivial
      hcommands hsockets
    refine ⟨h.recount hprepared hslots hcommands hsockets
      (fun _ _ => rfl) (fun ring x hx c' hc' => ?_), hasSlot_congr hslots, fun ring p => ?_⟩
    · split
      · by_cases hcc : c' = c
        · rw [hcc, Function.update_self, ← hcc, hx c' hc']
        · rw [Function.update_of_ne hcc, hx c' hc']
      · exact hx c' hc'
    · rw [willCount_recount (routed_send hcommands hsockets ring), willCount]
      obtain ⟨pf, pc⟩ := p
      dsimp only
      cases hx : rx.routed ring pf with
      | none => simp
      | some x =>
          rw [Option.map_some, Option.map_some, Option.getD_some, Option.getD_some]
          by_cases hf : pf = f
          · rw [if_pos hf]
            by_cases hring : rbShared = ring
            · rw [if_pos hring]
              by_cases hpc : pc = c
              · rw [hpc, Function.update_self, if_pos ⟨hring, Prod.ext hf rfl⟩]
              · rw [Function.update_of_ne hpc, if_neg fun hcon => hpc (Prod.mk.inj hcon.2).2]
                rfl
            · rw [if_neg hring, if_neg fun hcon => hring hcon.1]
              rfl
          · rw [if_neg hf, if_neg fun hcon => hf (Prod.mk.inj hcon.2).1]
            rfl

/-! ## Sockets that come and go -/

/-- A change of a whole socket. -/
theorem Routed.replace (h : rx.Routed) {c : RxCommand} {f : Nat}
    {o : Option (Nat × (Nat → Nat))} {info : Option RxFlowInfo} (hf : f < rx.flowsInfo.length)
    (hprepared : rx'.Prepared) (hinfo : rx'.flowsInfo = rx.flowsInfo.set f info)
    (hslots : o.map Prod.fst = info.map fun info => info.channelsMap.length)
    (hcommands : rx'.commands = rx.commands ++ [c]) (hsockets : rx'.sockets = rx.sockets)
    (hafter : ∀ ring v, c.afterSinks ring v = Function.update v f o)
    (hzero : ∀ x ∈ o, ∀ c, x.2 c = 0) :
    rx'.Routed ∧ (∀ p, p.1 ≠ f → rx'.hasSlot p = rx.hasSlot p) ∧
      ∀ ring p, rx'.willCount ring p = if p.1 = f then 0 else rx.willCount ring p := by
  have hrouted := fun ring => (routed_send hcommands hsockets ring).trans (hafter ring _)
  refine ⟨⟨hprepared, fun ring i => ?_, fun ring i x hx => ?_⟩, fun p hp => ?_, fun ring p => ?_⟩
  · rw [hrouted, slotsNoted, hinfo, join_set hf]
    by_cases hi : i = f
    · rw [if_pos hi, hi, Function.update_self, hslots]
    · rw [if_neg hi, Function.update_of_ne hi]
      exact h.slots ring i
  · rw [hrouted] at hx
    by_cases hi : i = f
    · rw [hi, Function.update_self] at hx
      exact fun c _ => hzero x hx c
    · rw [Function.update_of_ne hi] at hx
      exact h.inside ring i x hx
  · rw [hasSlot, hasSlot, hinfo, join_set hf, if_neg hp]
  · rw [willCount, willCount, hrouted]
    by_cases hp : p.1 = f
    · rw [if_pos hp, hp, Function.update_self]
      cases o with
      | none => rfl
      | some x => exact hzero x rfl p.2
    · rw [if_neg hp, Function.update_of_ne hp]

/-- An index that there is no place for. -/
theorem Routed.willCount_beyond (h : rx.Routed) {f : Nat} (hf : rx.flowsInfo.length ≤ f)
    (ring : RingId) (p : Nat × Nat) :
    rx.willCount ring p = if p.1 = f then 0 else rx.willCount ring p := by
  by_cases hp : p.1 = f
  · rw [if_pos hp]
    refine h.willCount_eq_zero ?_
    rw [hasSlot, hp, List.getElem?_eq_none hf]
    rfl
  · rw [if_neg hp]

theorem Routed.addSocket (h : rx.Routed) (f : Nat) (sendKeepalives : Bool)
    (bytesPerSample channelsCount latencySamples : Nat) :
    let rx' := rx.addSocket f sendKeepalives bytesPerSample channelsCount latencySamples
    rx'.Routed ∧ (∀ p, p.1 ≠ f → rx'.hasSlot p = rx.hasSlot p) ∧
      ∀ ring p, rx'.willCount ring p = if p.1 = f then 0 else rx.willCount ring p := by
  unfold FlowsReceiver.addSocket
  dsimp only
  split
  · next hge => exact ⟨h, fun _ _ => rfl, h.willCount_beyond hge⟩
  · next hlt =>
      have hempty : ∀ ring, RxSocket.sinks
          { sendKeepalives := sendKeepalives, bytesPerSample := bytesPerSample,
            latencySamples := latencySamples, channels := List.replicate channelsCount none,
            emptySinksVecs := List.replicate channelsCount [] } ring =
          (channelsCount, fun _ => 0) := by
        intro ring
        refine Prod.ext List.length_replicate (funext fun c => ?_)
        rw [RxSocket.sinks]
        dsimp only
        rw [RxSocket.sinkCount]
        dsimp only
        have hslot : (List.replicate channelsCount (none : Option (RxChannel RingId)))[c]?.join =
            none := by
          rw [List.getElem?_replicate]
          split <;> rfl
        rw [hslot]
      refine @Routed.replace rx _ h (.addSocket f _) f (some (channelsCount, fun _ => 0)) _
        (Nat.not_le.mp hlt) (Prepared.send h.prepared ?_ rfl rfl) rfl ?_ rfl rfl
        (fun ring v => ?_) fun x hx c => ?_
      · exact fun v hv => List.eq_of_mem_replicate hv
      · rw [Option.map_some, Option.map_some, List.length_replicate]
      · rw [RxCommand.afterSinks, hempty]
      · obtain rfl := Option.some.inj hx
        rfl

theorem Routed.removeSocket (h : rx.Routed) (f : Nat) :
    (rx.removeSocket f).Routed ∧
      (∀ p, p.1 ≠ f → (rx.removeSocket f).hasSlot p = rx.hasSlot p) ∧
      ∀ ring p, (rx.removeSocket f).willCount ring p =
        if p.1 = f then 0 else rx.willCount ring p := by
  unfold FlowsReceiver.removeSocket
  split
  · next hge => exact ⟨h, fun _ _ => rfl, h.willCount_beyond hge⟩
  · next hlt =>
      exact @Routed.replace rx _ h (.removeSocket f) f none none (Nat.not_le.mp hlt)
        (@Prepared.send rx _ h.prepared (.removeSocket f) trivial rfl rfl) rfl rfl rfl rfl
        (fun _ _ => rfl) fun x hx => (by cases hx)

theorem Routed.takeCommand (h : rx.Routed) {now : Option Clock} {ringSize : RingId → Nat}
    (hrun : rx.takeCommand now ringSize = some rx') :
    rx'.Routed ∧ (∀ p, rx'.hasSlot p = rx.hasSlot p) ∧
      ∀ ring p, rx'.willCount ring p = rx.willCount ring p := by
  unfold FlowsReceiver.takeCommand at hrun
  split at hrun
  · cases hrun
  next c cs hcommands =>
  have hinfo := (handle_flowsInfo hrun).1
  obtain ⟨_, _, hrest⟩ := handle_shapes hrun
  have hsinks := fun ring => @handle_sinks { rx with commands := cs } rx' ring now ringSize c
    h.prepared.1 (h.prepared.2 c (by rw [hcommands]; exact List.mem_cons_self)) hrun
  have hrouted : ∀ ring, rx'.routed ring = rx.routed ring := by
    intro ring
    rw [routed, routed, hrest, (hsinks ring).2, hcommands, Outbox.drained_cons]
    rfl
  have hprepared : rx'.Prepared := by
    refine ⟨(hsinks (.external 0)).1, fun c' hc' => h.prepared.2 c' ?_⟩
    rw [hrest] at hc'
    rw [hcommands]
    exact List.mem_cons_of_mem c hc'
  have hslots : ∀ f, rx'.slotsNoted f = rx.slotsNoted f := by
    intro f
    rw [slotsNoted, slotsNoted, hinfo]
  refine ⟨⟨hprepared, fun ring f => ?_, fun ring f => ?_⟩, hasSlot_congr hslots, fun ring p => ?_⟩
  · rw [hrouted, hslots]
    exact h.slots ring f
  · rw [hrouted]
    exact h.inside ring f
  · rw [willCount, willCount, hrouted]

theorem routed_start (maxChannels : Nat) (startTimestamp : Option Clock) :
    (start maxChannels startTimestamp).Routed := by
  have hnone : ∀ f : Nat, (start maxChannels startTimestamp).sockets[f]?.join = none := by
    intro f
    rw [start]
    dsimp only
    rw [List.getElem?_replicate]
    split <;> rfl
  have hinfo : ∀ f : Nat, (start maxChannels startTimestamp).flowsInfo[f]?.join = none := by
    intro f
    rw [start]
    dsimp only
    rw [List.getElem?_replicate]
    split <;> rfl
  have hrouted : ∀ ring f, (start maxChannels startTimestamp).routed ring f = none := by
    intro ring f
    show FlowsReceiver.sinks _ ring f = none
    rw [sinks, hnone, Option.map_none]
  refine ⟨⟨fun f socket hget => ?_, List.forall_mem_nil _⟩, fun ring f => ?_,
    fun ring f x hx => ?_⟩
  · rw [hnone] at hget
    cases hget
  · rw [hrouted, slotsNoted, hinfo, Option.map_none, Option.map_none]
  · rw [hrouted] at hx
    cases hx

end FlowsReceiver

end Inferno
