import Inferno.Lib.Runs
import Mathlib.Data.List.Basic
import Mathlib.Logic.Function.Basic

/-!
# Calls over a network that keeps no promises

Callers on one host send numbered requests to servers and wait for a reply, each
call on a port that no other call is waiting on. The network may lose, repeat and
reorder datagrams in both directions: what was sent once can arrive at any later
time, any number of times, and a port that is used again still gets what was
meant for the calls before. Other hosts may send the servers anything.

A call that ended with a value got a reply its server gave to a request from its
port, which this call or an earlier one had made (`traced_run`). Which of them it
was is for the protocol to tell, by what the requests and replies carry.
-/

namespace RequestReply

variable {Port Peer A Q R X V S E L : Type}

/-- What the two sides do: the request of the call of a number, what a reply
means to that call (`none`: it goes on waiting), and the server, which other
things may happen to. -/
structure Protocol (A Q R X V S E L : Type) where
  build : Nat → A → Except X Q
  judge : Nat → A → R → Option (Except X V)
  serve : S → E → Q → S × List R
  other : S → L → S

structure Call (Port Peer A : Type) where
  port : Port
  peer : Peer
  args : A

/-- A request on its way. -/
structure Datagram (Port Peer Q : Type) where
  source : Port
  peer : Peer
  body : Q

/-- A request that was served, and the state it was served in. -/
structure Served (Port Peer Q S E : Type) where
  datagram : Datagram Port Peer Q
  before : S
  env : E

namespace Served

variable (p : Protocol A Q R X V S E L) (e : Served Port Peer Q S E)

def after : S := (p.serve e.before e.env e.datagram.body).1

def replies : List R := (p.serve e.before e.env e.datagram.body).2

end Served

/-- `sent` and `served` hold everything there ever was. -/
structure World (Port Peer A Q X V S E : Type) where
  servers : Peer → S
  calls : List (Call Port Peer A)
  outcome : Nat → Option (Except X V)
  sent : List (Datagram Port Peer Q)
  served : List (Served Port Peer Q S E)

inductive Event (Port Peer A Q X E L : Type) where
  | call (c : Call Port Peer A)
  | foreign (d : Datagram Port Peer Q)
  | serve (datagram : Nat) (env : E)
  | other (peer : Peer) (l : L)
  | reply (call served answer : Nat)
  | giveUp (call : Nat) (x : X)

namespace World

section

variable (p : Protocol A Q R X V S E L) (w : World Port Peer A Q X V S E)

def start (servers : Peer → S) : World Port Peer A Q X V S E where
  servers := servers
  calls := []
  outcome := fun _ => none
  sent := []
  served := []

/-- No call is waiting on this port. -/
def Unused (port : Port) : Prop :=
  ∀ i (_ : i < w.calls.length), (w.outcome i).isNone → w.calls[i].port ≠ port

instance [DecidableEq Port] (port : Port) : Decidable (w.Unused port) :=
  inferInstanceAs (Decidable (∀ i (_ : i < w.calls.length), _))

/-- A call is made. -/
def call (c : Call Port Peer A) : World Port Peer A Q X V S E :=
  match p.build w.calls.length c.args with
  | .ok q => { w with calls := w.calls ++ [c], sent := w.sent ++ [⟨c.port, c.peer, q⟩] }
  | .error x =>
      { w with
        calls := w.calls ++ [c]
        outcome := Function.update w.outcome w.calls.length (some (.error x)) }

variable [DecidableEq Port] [DecidableEq Peer]

def serve (n : Nat) (env : E) : World Port Peer A Q X V S E :=
  match w.sent[n]? with
  | none => w
  | some d =>
      let e : Served Port Peer Q S E := ⟨d, w.servers d.peer, env⟩
      { w with
        servers := Function.update w.servers d.peer (e.after p)
        served := w.served ++ [e] }

/-- A reply gets to the call that waits on its port and takes it from this server. -/
def reply (i n k : Nat) : World Port Peer A Q X V S E :=
  match w.calls[i]?, w.outcome i, w.served[n]? with
  | some c, none, some e =>
      if e.datagram.source = c.port ∧ e.datagram.peer = c.peer then
        match (e.replies p)[k]? with
        | none => w
        | some r => { w with outcome := Function.update w.outcome i (p.judge i c.args r) }
      else w
  | _, _, _ => w

def giveUp (i : Nat) (x : X) : World Port Peer A Q X V S E :=
  if i < w.calls.length ∧ (w.outcome i).isNone then
    { w with outcome := Function.update w.outcome i (some (.error x)) }
  else w

/-- One event. Nothing comes of those that cannot happen: a port is bound by one
call at a time, and other hosts have other addresses. -/
def step (mine : Port → Prop) [DecidablePred mine] (w : World Port Peer A Q X V S E) :
    Event Port Peer A Q X E L → World Port Peer A Q X V S E
  | .call c => if mine c.port ∧ w.Unused c.port then w.call p c else w
  | .foreign d => if mine d.source then w else { w with sent := w.sent ++ [d] }
  | .serve n env => w.serve p n env
  | .other peer l =>
      { w with servers := Function.update w.servers peer (p.other (w.servers peer) l) }
  | .reply i n k => w.reply p i n k
  | .giveUp i x => w.giveUp i x

def run (mine : Port → Prop) [DecidablePred mine] (w : World Port Peer A Q X V S E)
    (events : List (Event Port Peer A Q X E L)) : World Port Peer A Q X V S E :=
  events.foldl (step p mine) w

end

/-! ## Where a reply comes from -/

section

variable (p : Protocol A Q R X V S E L)

/-- This is the request of that call. -/
def Made (calls : List (Call Port Peer A)) (j : Nat) (d : Datagram Port Peer Q) : Prop :=
  ∃ c, calls[j]? = some c ∧ c.port = d.source ∧ c.peer = d.peer ∧ p.build j c.args = .ok d.body

/-- The value was in a reply to a request that this call or one before it made. -/
def Answered (calls : List (Call Port Peer A)) (served : List (Served Port Peer Q S E)) (i : Nat)
    (c : Call Port Peer A) (v : V) : Prop :=
  ∃ e ∈ served, e.datagram.source = c.port ∧ e.datagram.peer = c.peer ∧
    (∃ r ∈ e.replies p, p.judge i c.args r = some (.ok v)) ∧ ∃ j ≤ i, Made p calls j e.datagram

structure Traced (mine : Port → Prop) (w : World Port Peer A Q X V S E) : Prop where
  ours : ∀ (i : Nat) (c : Call Port Peer A), w.calls[i]? = some c → mine c.port
  fresh : ∀ i, w.calls.length ≤ i → w.outcome i = none
  sent : ∀ d ∈ w.sent, mine d.source → ∃ j, Made p w.calls j d
  served : ∀ e ∈ w.served, e.datagram ∈ w.sent
  last : ∀ i c, w.calls[i]? = some c → w.outcome i = none → ∀ j c', w.calls[j]? = some c' →
    c'.port = c.port → j ≤ i
  ended : ∀ i c v, w.calls[i]? = some c → w.outcome i = some (.ok v) →
    Answered p w.calls w.served i c v

variable {p} {mine : Port → Prop} {w : World Port Peer A Q X V S E}

theorem Made.append {calls : List (Call Port Peer A)} {j : Nat} {d : Datagram Port Peer Q}
    (h : Made p calls j d) (c : Call Port Peer A) : Made p (calls ++ [c]) j d := by
  obtain ⟨c', hc', h⟩ := h
  refine ⟨c', ?_, h⟩
  rw [List.getElem?_append_left (List.getElem?_eq_some_iff.mp hc').1]
  exact hc'

theorem Answered.mono {calls calls' : List (Call Port Peer A)}
    {served served' : List (Served Port Peer Q S E)} {i : Nat} {c : Call Port Peer A} {v : V}
    (h : Answered p calls served i c v) (hcalls : ∀ j d, Made p calls j d → Made p calls' j d)
    (hserved : ∀ e ∈ served, e ∈ served') : Answered p calls' served' i c v := by
  obtain ⟨e, he, hport, hpeer, hr, j, hj, hmade⟩ := h
  exact ⟨e, hserved e he, hport, hpeer, hr, j, hj, hcalls j _ hmade⟩

/-- A call is in the list already, or it is the new one. -/
theorem getElem?_snoc {calls : List (Call Port Peer A)} {c c' : Call Port Peer A} {i : Nat}
    (h : (calls ++ [c])[i]? = some c') :
    calls[i]? = some c' ∧ i < calls.length ∨ i = calls.length ∧ c' = c := by
  rcases Nat.lt_trichotomy i calls.length with hlt | heq | hgt
  · rw [List.getElem?_append_left hlt] at h
    exact Or.inl ⟨h, hlt⟩
  · rw [heq, List.getElem?_concat_length] at h
    cases h
    exact Or.inr ⟨heq, rfl⟩
  · rw [List.getElem?_eq_none (by rw [List.length_append, List.length_singleton]; omega)] at h
    cases h

theorem traced_start (servers : Peer → S) :
    Traced p mine (start servers : World Port Peer A Q X V S E) where
  ours := fun i c hc => by cases hc
  fresh := fun i _ => rfl
  sent := fun d hd => by cases hd
  served := fun e he => by cases he
  last := fun i c hc => by cases hc
  ended := fun i c v hc => by cases hc

/-- The new call is the last one on its port. -/
theorem Traced.call (h : Traced p mine w) {c : Call Port Peer A} (hmine : mine c.port)
    (hunused : w.Unused c.port) : Traced p mine (w.call p c) := by
  have hwaits : ∀ i c', w.calls[i]? = some c' → w.outcome i = none → c'.port ≠ c.port := by
    intro i c' hc' hnone
    obtain ⟨hlt, rfl⟩ := List.getElem?_eq_some_iff.mp hc'
    exact hunused i hlt (by rw [hnone]; rfl)
  have hlast : ∀ (outcome : Nat → Option (Except X V)),
      (∀ i, i < w.calls.length → outcome i = w.outcome i) →
      ∀ i c', (w.calls ++ [c])[i]? = some c' → outcome i = none →
        ∀ j c'', (w.calls ++ [c])[j]? = some c'' → c''.port = c'.port → j ≤ i := by
    intro outcome hsame i c' hc' hnone j c'' hc'' hport
    rcases getElem?_snoc hc' with ⟨hold, hi⟩ | ⟨hi, hnew⟩
    · rw [hsame i hi] at hnone
      rcases getElem?_snoc hc'' with ⟨hold', _⟩ | ⟨_, hnew'⟩
      · exact h.last i c' hold hnone j c'' hold' hport
      · rw [hnew'] at hport
        exact absurd hport.symm (hwaits i c' hold hnone)
    · rcases getElem?_snoc hc'' with ⟨_, hj⟩ | ⟨hj, _⟩
      · omega
      · omega
  have hports : ∀ (i : Nat) (c' : Call Port Peer A), (w.calls ++ [c])[i]? = some c' → mine c'.port := by
    intro i c' hc'
    rcases getElem?_snoc hc' with ⟨hold, _⟩ | ⟨_, hnew⟩
    · exact h.ours i c' hold
    · rw [hnew]
      exact hmine
  have hended : ∀ i c' v, (w.calls ++ [c])[i]? = some c' → w.outcome i = some (.ok v) →
      Answered p (w.calls ++ [c]) w.served i c' v := by
    intro i c' v hc' hok
    rcases getElem?_snoc hc' with ⟨hold, _⟩ | ⟨hi, _⟩
    · exact (h.ended i c' v hold hok).mono (fun j d hd => hd.append c) fun e he => he
    · rw [h.fresh _ (Nat.le_of_eq hi.symm)] at hok
      cases hok
  unfold World.call
  cases hbuild : p.build w.calls.length c.args with
  | ok q =>
      refine ⟨hports, fun i hi => h.fresh i ?_, fun d hd hd' => ?_, fun e he => ?_,
        hlast w.outcome fun _ _ => rfl, hended⟩
      · rw [List.length_append] at hi
        omega
      · rcases List.mem_append.mp hd with hd | hd
        · obtain ⟨j, hmade⟩ := h.sent d hd hd'
          exact ⟨j, hmade.append c⟩
        · rw [List.mem_singleton] at hd
          subst hd
          exact ⟨w.calls.length, c, List.getElem?_concat_length, rfl, rfl, hbuild⟩
      · exact List.mem_append_left _ (h.served e he)
  | error x =>
      have hne : ∀ i, i < w.calls.length →
          Function.update w.outcome w.calls.length (some (.error x)) i = w.outcome i :=
        fun i hi => Function.update_of_ne (Nat.ne_of_lt hi) _ _
      refine ⟨hports, fun i hi => ?_, fun d hd hd' => ?_, h.served, hlast _ hne, ?_⟩
      · rw [List.length_append, List.length_singleton] at hi
        dsimp only
        rw [Function.update_of_ne (by omega)]
        exact h.fresh i (by omega)
      · obtain ⟨j, hmade⟩ := h.sent d hd hd'
        exact ⟨j, hmade.append c⟩
      · intro i c' v hc' hok
        dsimp only at hok
        by_cases hi : i = w.calls.length
        · rw [hi, Function.update_self] at hok
          cases hok
        · rw [Function.update_of_ne hi] at hok
          exact hended i c' v hc' hok

/-- An outcome is set that is no value or has its reply. -/
theorem Traced.setOutcome (h : Traced p mine w) {i : Nat} {c : Call Port Peer A}
    (hc : w.calls[i]? = some c) (hwaits : w.outcome i = none) {o : Option (Except X V)}
    (ho : ∀ v, o = some (.ok v) → Answered p w.calls w.served i c v) :
    Traced p mine { w with outcome := Function.update w.outcome i o } := by
  have hlt := (List.getElem?_eq_some_iff.mp hc).1
  refine ⟨h.ours, fun i' hi' => ?_, h.sent, h.served, fun i' c' hc' hnone => ?_,
    fun i' c' v hc' hok => ?_⟩
  · dsimp only at hi' ⊢
    rw [Function.update_of_ne (by omega)]
    exact h.fresh i' hi'
  · dsimp only at hnone
    by_cases hi : i' = i
    · subst hi
      exact h.last i' c' hc' hwaits
    · rw [Function.update_of_ne hi] at hnone
      exact h.last i' c' hc' hnone
  · dsimp only at hok
    by_cases hi : i' = i
    · subst hi
      rw [Function.update_self] at hok
      rw [show c' = c from Option.some.inj (hc'.symm.trans hc)]
      exact ho v hok
    · rw [Function.update_of_ne hi] at hok
      exact h.ended i' c' v hc' hok

theorem Traced.giveUp (h : Traced p mine w) (i : Nat) (x : X) :
    Traced p mine (w.giveUp i x) := by
  unfold World.giveUp
  split
  next hi =>
    refine h.setOutcome (List.getElem?_eq_getElem hi.1) (Option.isNone_iff_eq_none.mp hi.2) ?_
    intro v hv
    cases hv
  next => exact h

variable [DecidableEq Peer]

theorem Traced.serve (h : Traced p mine w) (n : Nat) (env : E) :
    Traced p mine (w.serve p n env) := by
  unfold World.serve
  cases hd : w.sent[n]? with
  | none => exact h
  | some d =>
      refine ⟨h.ours, h.fresh, h.sent, fun e he => ?_, h.last, fun i c v hc hok => ?_⟩
      · rcases List.mem_append.mp he with he | he
        · exact h.served e he
        · rw [List.mem_singleton] at he
          subst he
          exact List.mem_of_getElem? hd
      · exact (h.ended i c v hc hok).mono (fun _ _ hmade => hmade)
          fun e he => List.mem_append_left _ he

variable [DecidableEq Port]

/-- A call that waits is the last on its port, so its reply is not to a later one. -/
theorem Traced.reply (h : Traced p mine w) (i n k : Nat) : Traced p mine (w.reply p i n k) := by
  unfold World.reply
  split
  next c e hc hwaits he =>
    split
    next haddr =>
      split
      next => exact h
      next r hr =>
        refine h.setOutcome hc hwaits fun v hv => ?_
        have hmem := List.mem_of_getElem? he
        have hmine : mine e.datagram.source := by
          rw [haddr.1]
          exact h.ours i c hc
        obtain ⟨j, c', hc', hport, hmade⟩ := h.sent _ (h.served e hmem) hmine
        exact ⟨e, hmem, haddr.1, haddr.2, ⟨r, List.mem_of_getElem? hr, hv⟩, j,
          h.last i c hc hwaits j c' hc' (hport.trans haddr.1), c', hc', hport, hmade⟩
    next => exact h
  next => exact h

theorem Traced.step [DecidablePred mine] (h : Traced p mine w) (e : Event Port Peer A Q X E L) :
    Traced p mine (step p mine w e) := by
  cases e with
  | call c =>
      rw [World.step]
      split
      next hok => exact h.call hok.1 hok.2
      next => exact h
  | foreign d =>
      rw [World.step]
      split
      next => exact h
      next hnot =>
        refine ⟨h.ours, h.fresh, fun d' hd' hmine => ?_, fun e he => ?_, h.last, h.ended⟩
        · rcases List.mem_append.mp hd' with hd' | hd'
          · exact h.sent d' hd' hmine
          · rw [List.mem_singleton] at hd'
            subst hd'
            exact absurd hmine hnot
        · exact List.mem_append_left _ (h.served e he)
  | serve n env => exact h.serve n env
  | other peer l => exact ⟨h.ours, h.fresh, h.sent, h.served, h.last, h.ended⟩
  | reply i n k => exact h.reply i n k
  | giveUp i x => exact h.giveUp i x

theorem traced_run [DecidablePred mine] (servers : Peer → S)
    (events : List (Event Port Peer A Q X E L)) :
    Traced p mine (run p mine (start servers) events) := by
  suffices ∀ w, Traced p mine w → Traced p mine (run p mine w events) from
    this _ (traced_start servers)
  induction events with
  | nil => exact fun w h => h
  | cons e events ih => exact fun w h => ih _ (h.step e)

end

/-! ## What the servers keep -/

section

variable {p : Protocol A Q R X V S E L} {I : S → Prop}

/-- It holds of every server now, and did whenever one served a request. -/
structure Kept (I : S → Prop) (w : World Port Peer A Q X V S E) : Prop where
  servers : ∀ peer, I (w.servers peer)
  served : ∀ e ∈ w.served, I e.before

variable [DecidableEq Port] [DecidableEq Peer]

theorem Kept.step (hserve : ∀ s env q, I s → I (p.serve s env q).1)
    (hother : ∀ s l, I s → I (p.other s l)) {mine : Port → Prop} [DecidablePred mine]
    {w : World Port Peer A Q X V S E} (h : Kept I w) (e : Event Port Peer A Q X E L) :
    Kept I (World.step p mine w e) := by
  have hupdate : ∀ peer s, I s → ∀ peer', I (Function.update w.servers peer s peer') := by
    intro peer s hs peer'
    by_cases hpeer : peer' = peer
    · rw [hpeer, Function.update_self]
      exact hs
    · rw [Function.update_of_ne hpeer]
      exact h.servers peer'
  cases e with
  | call c =>
      rw [World.step, World.call]
      split
      next =>
        split
        next => exact ⟨h.servers, h.served⟩
        next => exact ⟨h.servers, h.served⟩
      next => exact h
  | foreign d =>
      rw [World.step]
      split
      next => exact h
      next => exact ⟨h.servers, h.served⟩
  | serve n env =>
      rw [World.step, World.serve]
      split
      next => exact h
      next d hd =>
        refine ⟨hupdate _ _ (hserve _ _ _ (h.servers d.peer)), fun e he => ?_⟩
        rcases List.mem_append.mp he with he | he
        · exact h.served e he
        · rw [List.mem_singleton] at he
          subst he
          exact h.servers d.peer
  | other peer l => exact ⟨hupdate _ _ (hother _ _ (h.servers peer)), h.served⟩
  | reply i n k =>
      rw [World.step, World.reply]
      split
      next =>
        split
        next =>
          split
          next => exact h
          next => exact ⟨h.servers, h.served⟩
        next => exact h
      next => exact h
  | giveUp i x =>
      rw [World.step, World.giveUp]
      split
      next => exact ⟨h.servers, h.served⟩
      next => exact h

theorem kept_run (hserve : ∀ s env q, I s → I (p.serve s env q).1)
    (hother : ∀ s l, I s → I (p.other s l)) {mine : Port → Prop} [DecidablePred mine]
    {servers : Peer → S} (h : ∀ peer, I (servers peer))
    (events : List (Event Port Peer A Q X E L)) :
    Kept I (run p mine (start servers : World Port Peer A Q X V S E) events) := by
  suffices ∀ w : World Port Peer A Q X V S E, Kept I w → Kept I (run p mine w events) from
    this _ ⟨h, fun e he => by cases he⟩
  induction events with
  | nil => exact fun w hw => hw
  | cons e events ih => exact fun w hw => ih _ (hw.step hserve hother e)

end

end World

end RequestReply
