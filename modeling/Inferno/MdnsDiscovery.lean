import Inferno.Wire
import Inferno.Lib.Presence

/-!
# Discovering responders

`discovery_loop`: responses are taken whenever they come, and each time the
discovery packet has been sent the responders are given a while before those that
ignored too many packets are swept out. A handler is told about every responder.

Who is remembered depends on the responses and the sweeps alone
(`remembered_iff`), and what is told of a responder is a sound account of it. The
handler runs in other threads: a loss may reach it after what was told later
(`told_once`).

Names are compared as DNS compares them; `decode` is the decoder of messages.
-/

namespace Inferno

open Presence

/-! ## Messages -/

/-- The data of a record, of the kinds that are read. -/
inductive RData (N : Type) where
  | a (ip : BitVec 32)
  | aaaa (ip : BitVec 128)
  | ptr (name : N)
  | srv (port : BitVec 16) (target : N)
  | txt (txtData : List (List Byte))
deriving DecidableEq

structure DnsRecord (N : Type) where
  name : N
  data : Option (RData N)
deriving DecidableEq

structure DnsQuery (N : Type) where
  name : N
  mdnsUnicastResponse : Bool
deriving DecidableEq

structure DnsMessage (N : Type) where
  isResponse : Bool
  truncated : Bool
  queries : List (DnsQuery N)
  answers : List (DnsRecord N)
  additionals : List (DnsRecord N)
deriving DecidableEq

/-! ## The loop -/

structure Responder (N : Type) where
  addr : SocketAddr
  lastResponse : DnsMessage N
  lastResponded : Nat

/-- What the handler is told: `ResponderFound`, `ResponseUpdate`, `ResponderLost`. -/
abbrev DiscoveryEvent (N : Type) := Told SocketAddr (Responder N)

def IsLoss {N : Type} (e : DiscoveryEvent N) : Bool := match e with
  | .lost _ _ => true
  | _ => false

structure Discovery (N : Type) where
  serviceName : Option N
  maxIgnoredPackets : BitVec 8

open Discovery

/-- Where the loop stands: at its `select!`, giving responders a chance, or returned
with an error. -/
inductive DiscoveryPhase where
  | select
  | giving
  | failed
deriving DecidableEq

/-- What the loop finds next: something received at some time, an error of the socket,
a tick of the interval and whether the packet was sent, or that the chance is over. A
thread may also get to a handler that is due. -/
inductive DiscoveryInput where
  | recv (addr : SocketAddr) (packet : List Byte) (now : Nat)
  | recvError
  | tick (sent : Bool)
  | deadline
  | runHandler (n : Nat)

/-- `memory` is what the loop remembers; `due` are the handlers that it spawned
without waiting for them. -/
structure DiscoveryLoop (N : Type) where
  phase : DiscoveryPhase
  memory : List (Entry SocketAddr (Responder N))
  due : List (DiscoveryEvent N)
  handled : List (DiscoveryEvent N)

section

variable {N : Type}

namespace DiscoveryLoop

def start : DiscoveryLoop N where
  phase := .select
  memory := []
  due := []
  handled := []

/-- A response or a sweep, with the handlers of losses spawned and the others awaited. -/
def happens (cfg : Discovery N) (w : DiscoveryLoop N)
    (h : Happening SocketAddr (Responder N)) : DiscoveryLoop N :=
  let (memory, told) := Presence.step cfg.maxIgnoredPackets.toNat w.memory h
  { w with
    memory := memory
    due := w.due ++ told.filter IsLoss
    handled := w.handled ++ told.filter fun e => !IsLoss e }

end DiscoveryLoop

variable [DecidableEq N] (decode : List Byte → Option (DnsMessage N)) (cfg : Discovery N)

/-- The response in a packet, if it is about the service. -/
def Discovery.accepted (packet : List Byte) : Option (DnsMessage N) :=
  if packet.length = 0 then none
  else match decode packet with
    | none => none
    | some message =>
        if message.isResponse then
          match cfg.serviceName with
          | none => some message
          | some serviceName =>
              if message.answers.any (·.name = serviceName) then some message else none
        else none

namespace DiscoveryLoop

/-- `recv_multicast`. -/
def recvMulticast (w : DiscoveryLoop N) (addr : SocketAddr) (packet : List Byte) (now : Nat) :
    DiscoveryLoop N :=
  match accepted decode cfg packet with
  | some response => w.happens cfg (.heard addr ⟨addr, response, now⟩)
  | none => w

def step (w : DiscoveryLoop N) : DiscoveryInput → DiscoveryLoop N
  | .recv addr packet now =>
      if w.phase = .failed then w else w.recvMulticast decode cfg addr packet now
  | .recvError => if w.phase = .giving then { w with phase := .failed } else w
  | .tick sent =>
      -- without a limit nobody is given a chance, as nobody is swept out
      if w.phase = .select ∧ sent = true ∧ cfg.maxIgnoredPackets ≠ 0 then
        { w with phase := .giving }
      else w
  | .deadline =>
      if w.phase = .giving then { w.happens cfg .sweep with phase := .select } else w
  | .runHandler n => match w.due[n]? with
      | some e => { w with due := w.due.eraseIdx n, handled := w.handled ++ [e] }
      | none => w

def run (inputs : List DiscoveryInput) : DiscoveryLoop N := inputs.foldl (step decode cfg) start

end DiscoveryLoop

/-! ## What happens in a run -/

/-- The phase after an input. -/
def Discovery.phaseAfter (cfg : Discovery N) (phase : DiscoveryPhase) : DiscoveryInput → DiscoveryPhase
  | .recvError => if phase = .giving then .failed else phase
  | .tick sent =>
      if phase = .select ∧ sent = true ∧ cfg.maxIgnoredPackets ≠ 0 then .giving else phase
  | .deadline => if phase = .giving then .select else phase
  | _ => phase

/-- What an input comes to: a response that is accepted, or the end of a round. -/
def Discovery.happening (phase : DiscoveryPhase) : DiscoveryInput → List (Happening SocketAddr (Responder N))
  | .recv addr packet now =>
      if phase = .failed then []
      else ((accepted decode cfg packet).map fun response =>
        Happening.heard addr (Responder.mk addr response now)).toList
  | .deadline => if phase = .giving then [.sweep] else []
  | _ => []

/-- Everything that happened, and where the loop is then. -/
def Discovery.happenings (inputs : List DiscoveryInput) :
    List (Happening SocketAddr (Responder N)) × DiscoveryPhase :=
  inputs.foldl (fun s i => (s.1 ++ happening decode cfg s.2 i, phaseAfter cfg s.2 i)) ([], .select)

/-- What was told by then. -/
def Discovery.told (inputs : List DiscoveryInput) : List (DiscoveryEvent N) :=
  (Presence.run cfg.maxIgnoredPackets.toNat (happenings decode cfg inputs).1).2

end

/-! ## The loop and what happened -/

section

variable {N : Type} {cfg : Discovery N}

/-- The loop after some happenings, whatever the handlers did meanwhile. -/
structure DiscoveryLoop.After (cfg : Discovery N) (hs : List (Happening SocketAddr (Responder N)))
    (w : DiscoveryLoop N) : Prop where
  memory : w.memory = (Presence.run cfg.maxIgnoredPackets.toNat hs).1
  told : (w.handled ++ w.due).Perm (Presence.run cfg.maxIgnoredPackets.toNat hs).2
  losses : ∀ e ∈ w.due, IsLoss e = true
  ordered : (w.handled.filter fun e => !IsLoss e) =
    (Presence.run cfg.maxIgnoredPackets.toNat hs).2.filter fun e => !IsLoss e

/-- New elements put at the end of one list or the other. -/
theorem append_filter_perm {A : Type} (p : A → Bool) (xs ys new : List A) :
    ((xs ++ new.filter fun x => !p x) ++ (ys ++ new.filter p)).Perm (xs ++ ys ++ new) := by
  have hsplit : ((new.filter fun x => !p x) ++ new.filter p).Perm new :=
    List.perm_append_comm.trans (List.filter_append_perm p new)
  rw [List.append_assoc, List.append_assoc]
  refine List.Perm.append_left xs ?_
  exact (List.perm_append_comm_assoc ..).trans (hsplit.append_left ys)

namespace DiscoveryLoop.After

variable {hs : List (Happening SocketAddr (Responder N))} {w : DiscoveryLoop N}

theorem start : DiscoveryLoop.After cfg [] (DiscoveryLoop.start : DiscoveryLoop N) :=
  ⟨rfl, List.Perm.refl _, fun e he => (by cases he), rfl⟩

theorem congr (h : w.After cfg hs) {w' : DiscoveryLoop N} (hm : w'.memory = w.memory)
    (hd : w'.due = w.due) (hh : w'.handled = w.handled) : w'.After cfg hs := by
  obtain ⟨h1, h2, h3, h4⟩ := h
  refine ⟨?_, ?_, ?_, ?_⟩ <;> simpa only [hm, hd, hh]

theorem happens (h : w.After cfg hs) (e : Happening SocketAddr (Responder N)) :
    (w.happens cfg e).After cfg (hs ++ [e]) := by
  have hrun := run_snoc cfg.maxIgnoredPackets.toNat hs e
  rw [← h.memory] at hrun
  unfold DiscoveryLoop.happens
  dsimp only
  refine ⟨?_, ?_, fun e' he' => ?_, ?_⟩
  · rw [hrun]
  · rw [hrun]
    exact (append_filter_perm IsLoss w.handled w.due _).trans (h.told.append_right _)
  · rcases List.mem_append.mp he' with he' | he'
    · exact h.losses e' he'
    · exact (List.mem_filter.mp he').2
  · rw [hrun]
    dsimp only
    rw [List.filter_append, List.filter_append, h.ordered, List.filter_filter]
    simp only [Bool.and_self]

theorem runHandler (h : w.After cfg hs) {n : Nat} {e : DiscoveryEvent N}
    (he : w.due[n]? = some e) :
    DiscoveryLoop.After cfg hs
      { w with due := w.due.eraseIdx n, handled := w.handled ++ [e] } := by
  obtain ⟨hlt, hget⟩ := List.getElem?_eq_some_iff.mp he
  have hperm : (e :: w.due.eraseIdx n).Perm w.due := by
    rw [← hget]
    exact List.getElem_cons_eraseIdx_perm hlt
  refine ⟨h.memory, ?_, fun e' he' => h.losses e' (List.mem_of_mem_eraseIdx he'), ?_⟩
  · dsimp only
    rw [List.append_assoc]
    exact (hperm.append_left w.handled).trans h.told
  · dsimp only
    have hloss := h.losses e (List.mem_of_getElem? he)
    rw [List.filter_append, h.ordered, List.filter_cons, hloss]
    exact List.append_nil _

end DiscoveryLoop.After

variable [DecidableEq N] (decode : List Byte → Option (DnsMessage N)) (cfg)

theorem happenings_snoc (inputs : List DiscoveryInput) (i : DiscoveryInput) :
    happenings decode cfg (inputs ++ [i]) =
      ((happenings decode cfg inputs).1 ++
        happening decode cfg (happenings decode cfg inputs).2 i,
        phaseAfter cfg (happenings decode cfg inputs).2 i) := by
  rw [happenings, List.foldl_append]
  rfl

variable {cfg}

theorem after_step {w : DiscoveryLoop N} {hs : List (Happening SocketAddr (Responder N))}
    (h : w.After cfg hs) (i : DiscoveryInput) :
    (w.step decode cfg i).After cfg (hs ++ happening decode cfg w.phase i) ∧
      (w.step decode cfg i).phase = phaseAfter cfg w.phase i := by
  cases i with
  | recv addr packet now =>
      unfold DiscoveryLoop.step happening DiscoveryLoop.recvMulticast phaseAfter
      dsimp only
      by_cases hfailed : w.phase = .failed
      · rw [if_pos hfailed, if_pos hfailed, List.append_nil]
        exact ⟨h, rfl⟩
      · rw [if_neg hfailed, if_neg hfailed]
        cases accepted decode cfg packet with
        | none =>
            rw [Option.map_none, Option.toList_none, List.append_nil]
            exact ⟨h, rfl⟩
        | some response => exact ⟨h.happens _, rfl⟩
  | recvError =>
      unfold DiscoveryLoop.step happening phaseAfter
      dsimp only
      rw [List.append_nil]
      split
      · exact ⟨h.congr rfl rfl rfl, rfl⟩
      · exact ⟨h, rfl⟩
  | tick sent =>
      unfold DiscoveryLoop.step happening phaseAfter
      dsimp only
      rw [List.append_nil]
      split
      · exact ⟨h.congr rfl rfl rfl, rfl⟩
      · exact ⟨h, rfl⟩
  | deadline =>
      unfold DiscoveryLoop.step happening phaseAfter
      dsimp only
      by_cases hgiving : w.phase = .giving
      · rw [if_pos hgiving, if_pos hgiving, if_pos hgiving]
        exact ⟨(h.happens .sweep).congr rfl rfl rfl, rfl⟩
      · rw [if_neg hgiving, if_neg hgiving, if_neg hgiving, List.append_nil]
        exact ⟨h, rfl⟩
  | runHandler n =>
      unfold DiscoveryLoop.step happening phaseAfter
      dsimp only
      rw [List.append_nil]
      split
      next e he => exact ⟨h.runHandler he, rfl⟩
      next => exact ⟨h, rfl⟩

variable (cfg)

theorem after_run (inputs : List DiscoveryInput) :
    (DiscoveryLoop.run decode cfg inputs).After cfg (happenings decode cfg inputs).1 ∧
      (DiscoveryLoop.run decode cfg inputs).phase = (happenings decode cfg inputs).2 := by
  induction inputs using List.reverseRecOn with
  | nil => exact ⟨.start, rfl⟩
  | append_singleton inputs i ih =>
      obtain ⟨ih, hphase⟩ := ih
      have hstep := after_step decode ih i
      rw [hphase] at hstep
      rw [happenings_snoc, DiscoveryLoop.run, List.foldl_append]
      exact hstep

/-- A responder is remembered exactly if it responded, and no more than
`max_ignored_packets` rounds ended since; with the last response it gave. -/
theorem remembered_iff (inputs : List DiscoveryInput) (addr : SocketAddr)
    (responder : Responder N) (ignored : Nat) :
    lookup (DiscoveryLoop.run decode cfg inputs).memory addr = some (responder, ignored) ↔
      since (happenings decode cfg inputs).1 addr = some (responder, ignored) ∧
        ignored ≤ cfg.maxIgnoredPackets.toNat := by
  rw [(after_run cfg decode inputs).1.memory, lookup_run, Option.filter_eq_some_iff,
    decide_eq_true_iff]

/-- Each responder is found first, updated from its last response and lost with it.
All of it is handled once or due: what is no loss is handled in this order, but a loss
may be handled late. -/
theorem told_once (inputs : List DiscoveryInput) :
    (∀ addr, Presence.Follows none (about addr (told decode cfg inputs))
      ((lookup (DiscoveryLoop.run decode cfg inputs).memory addr).map Prod.fst)) ∧
    ((DiscoveryLoop.run decode cfg inputs).handled ++
      (DiscoveryLoop.run decode cfg inputs).due).Perm (told decode cfg inputs) ∧
    (∀ e ∈ (DiscoveryLoop.run decode cfg inputs).due, IsLoss e = true) ∧
    ((DiscoveryLoop.run decode cfg inputs).handled.filter fun e => !IsLoss e) =
      (told decode cfg inputs).filter fun e => !IsLoss e := by
  have h := (after_run cfg decode inputs).1
  refine ⟨fun addr => ?_, h.told, h.losses, h.ordered⟩
  rw [h.memory]
  exact told_run _ _ _

end

end Inferno
