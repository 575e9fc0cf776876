import Inferno.Lib.Prog

/-!
# The real-time box channel

`send` and `update` are programs of atomic takes and swaps on the two slots
`next` and `prev`, interleaved in a `BoxSystem`. The invariant names the point
each side has reached (`Stage`, `SenderStage`): between its take and its swap
of `prev` the receiver alone can fill that slot, so its assertion never fails.

A box that was sent arrives unless, when it is swapped in, the receiver still
has a box on its way into `prev` or one is there already: nobody but the
sender empties `prev`, so `update` then answers `false` for ever
(`delivered_iff_room`).
-/

namespace Inferno

variable {T : Type}

/-! ## The channel -/

/-- `Box<T>`; two boxes are told apart by their allocation. -/
structure Boxed (T : Type) where
  id : Nat
  value : T
deriving DecidableEq

/-- `Shared`. -/
structure BoxShared (T : Type) where
  next : Option (Boxed T)
  prev : Option (Boxed T)

inductive BoxOp (T : Type) where
  | takeNext
  | swapNext (value : Option (Boxed T))
  | takePrev
  | swapPrev (value : Option (Boxed T))

abbrev BoxIface (T : Type) : Iface := ⟨BoxOp T, fun _ => Option (Boxed T)⟩

abbrev BoxProg (T β : Type) := Prog (BoxIface T) β

/-- Every operation answers what the slot held. -/
def boxMem : Handler (BoxIface T) (BoxShared T)
  | .takeNext, s => (s.next, { s with next := none })
  | .swapNext v, s => (s.next, { s with next := v })
  | .takePrev, s => (s.prev, { s with prev := none })
  | .swapPrev v, s => (s.prev, { s with prev := v })

namespace RealTimeBoxSender

def collectGarbage : BoxProg T Unit := do
  let _prev ← Prog.call BoxOp.takePrev
  pure ()

/-- The part of `send` after `collect_garbage`. -/
def swapIn (value : Boxed T) : BoxProg T Unit := do
  let _unusedNext ← Prog.call (BoxOp.swapNext (some value))
  pure ()

def send (value : Boxed T) : BoxProg T Unit := do
  collectGarbage
  swapIn value

end RealTimeBoxSender

namespace RealTimeBoxReceiver

/-- "prev hasn't been received by non-real-time thread yet ... reinstall the
prev back". -/
def reinstall (curr prev : Boxed T) : BoxProg T (Boxed T × Bool) := do
  let swappedPrev ← Prog.call (BoxOp.swapPrev (some prev))
  Prog.assert swappedPrev.isNone
  pure (curr, false)

/-- `next` has replaced `prev` as the current box. -/
def retire (next prev : Boxed T) : BoxProg T (Boxed T × Bool) := do
  let swappedPrev ← Prog.call (BoxOp.swapPrev (some prev))
  Prog.assert swappedPrev.isNone
  pure (next, true)

/-- "we have space in prev to put current Box into". -/
def advance (curr : Boxed T) : BoxProg T (Boxed T × Bool) := do
  match ← Prog.call BoxOp.takeNext with
  | some next => retire next curr
  | none => pure (curr, false)

/-- `update`, from the current box to the current box and the answer. -/
def update (curr : Boxed T) : BoxProg T (Boxed T × Bool) := do
  match ← Prog.call BoxOp.takePrev with
  | some prev => reinstall curr prev
  | none => advance curr

end RealTimeBoxReceiver

/-! ## Sender and receiver interleaved -/

inductive BoxSender (T : Type) where
  | idle
  | busy (p : BoxProg T Unit)

/-- `idle curr` is between two updates, where `get` returns `curr`. -/
inductive BoxReceiver (T : Type) where
  | idle (curr : Boxed T)
  | busy (p : BoxProg T (Boxed T × Bool))

/-- `allocated` is the number of boxes there have been. -/
structure BoxSystem (T : Type) where
  shared : BoxShared T
  sender : BoxSender T
  receiver : BoxReceiver T
  allocated : Nat

/-- `channel`. -/
def BoxSystem.channel (initial : T) : BoxSystem T where
  shared := ⟨none, none⟩
  sender := .idle
  receiver := .idle ⟨0, initial⟩
  allocated := 1

inductive BoxStep : BoxSystem T → BoxSystem T → Prop
  | send {sh r n} (value : T) : BoxStep ⟨sh, .idle, r, n⟩
      ⟨sh, .busy (RealTimeBoxSender.send ⟨n, value⟩), r, n + 1⟩
  | collect {sh r n} : BoxStep ⟨sh, .idle, r, n⟩
      ⟨sh, .busy RealTimeBoxSender.collectGarbage, r, n⟩
  | sender {sh r n} (c : BoxOp T) (k : Option (Boxed T) → BoxProg T Unit) :
      BoxStep ⟨sh, .busy (.act c k), r, n⟩
        ⟨(boxMem c sh).2, .busy (k (boxMem c sh).1), r, n⟩
  | sent {sh r n} : BoxStep ⟨sh, .busy (.ret ()), r, n⟩ ⟨sh, .idle, r, n⟩
  | update {sh q n curr} : BoxStep ⟨sh, q, .idle curr, n⟩
      ⟨sh, q, .busy (RealTimeBoxReceiver.update curr), n⟩
  | receiver {sh q n} (c : BoxOp T) (k : Option (Boxed T) → BoxProg T (Boxed T × Bool)) :
      BoxStep ⟨sh, q, .busy (.act c k), n⟩ ⟨(boxMem c sh).2, q, .busy (k (boxMem c sh).1), n⟩
  | updated {sh q n curr ok} : BoxStep ⟨sh, q, .busy (.ret (curr, ok)), n⟩
      ⟨sh, q, .idle curr, n⟩

/-! ## The points reached -/

/-- The points of an update. -/
inductive Stage (T : Type) where
  | idle (curr : Boxed T)
  | starting (curr : Boxed T)
  | reinstalling (curr prev : Boxed T)
  | advancing (curr : Boxed T)
  | retiring (next prev : Boxed T)
  | ending (curr : Boxed T) (ok : Bool)

namespace Stage

def thread : Stage T → BoxReceiver T
  | idle curr => .idle curr
  | starting curr => .busy (RealTimeBoxReceiver.update curr)
  | reinstalling curr prev => .busy (RealTimeBoxReceiver.reinstall curr prev)
  | advancing curr => .busy (RealTimeBoxReceiver.advance curr)
  | retiring next prev => .busy (RealTimeBoxReceiver.retire next prev)
  | ending curr ok => .busy (.ret (curr, ok))

/-- The box that is current unless another one is taken. -/
def newest : Stage T → Boxed T
  | idle curr | starting curr | reinstalling curr _ | advancing curr | ending curr _ => curr
  | retiring next _ => next

/-- `prev` has been taken and not been swapped back yet. -/
def Between : Stage T → Prop
  | reinstalling _ _ | advancing _ | retiring _ _ => True
  | _ => False

end Stage

/-- The points of the sender. -/
inductive SenderStage (T : Type) where
  | idle
  | sending (b : Boxed T)
  | swapping (b : Boxed T)
  | collecting
  | ending

namespace SenderStage

def thread : SenderStage T → BoxSender T
  | idle => .idle
  | sending b => .busy (RealTimeBoxSender.send b)
  | swapping b => .busy (RealTimeBoxSender.swapIn b)
  | collecting => .busy RealTimeBoxSender.collectGarbage
  | ending => .busy (.ret ())

/-- The box the sender still has in hand. -/
def pending : SenderStage T → Option (Boxed T)
  | sending b | swapping b => some b
  | _ => none

/-- The boxes outside the sender were allocated before this one. -/
def bound (allocated : Nat) : SenderStage T → Nat
  | sending b | swapping b => b.id
  | _ => allocated

end SenderStage

/-- The invariant of a run, with the points the two sides have reached. -/
structure BoxSystem.At (s : BoxSystem T) (r : Stage T) (q : SenderStage T) : Prop where
  receiver : s.receiver = r.thread
  sender : s.sender = q.thread
  prev : r.Between → s.shared.prev = none
  pending : ∀ b ∈ q.pending, b.id < s.allocated
  newest : r.newest.id < q.bound s.allocated
  next : ∀ b ∈ s.shared.next, b.id < q.bound s.allocated

theorem at_channel (initial : T) :
    (BoxSystem.channel initial).At (.idle ⟨0, initial⟩) .idle :=
  ⟨rfl, rfl, fun h => h.elim, fun _ h => (by cases h), Nat.one_pos, fun _ h => by cases h⟩

section Steps

variable {sh : BoxShared T} {n : Nat} {r : Stage T} {q : SenderStage T} {c : BoxOp T}

theorem at_sender {rc : BoxReceiver T} {k : Option (Boxed T) → BoxProg T Unit}
    (h : BoxSystem.At ⟨sh, .busy (.act c k), rc, n⟩ r q) :
    ∃ q', BoxSystem.At ⟨(boxMem c sh).2, .busy (k (boxMem c sh).1), rc, n⟩ r q' := by
  obtain ⟨hr, hs, hprev, hpend, hnew, hnext⟩ := h
  cases q with
  | idle => cases hs
  | sending b =>
      cases hs
      exact ⟨.swapping b, hr, rfl, fun _ => rfl, hpend, hnew, hnext⟩
  | swapping b =>
      cases hs
      have hb : b.id < n := hpend b rfl
      refine ⟨.ending, hr, rfl, hprev, fun _ h => (by cases h), Nat.lt_trans hnew hb, ?_⟩
      intro b' hb'
      cases hb'
      exact hb
  | collecting =>
      cases hs
      exact ⟨.ending, hr, rfl, fun _ => rfl, hpend, hnew, hnext⟩
  | ending => cases hs

theorem at_receiver {sd : BoxSender T} {k : Option (Boxed T) → BoxProg T (Boxed T × Bool)}
    (h : BoxSystem.At ⟨sh, sd, .busy (.act c k), n⟩ r q) :
    ∃ r', BoxSystem.At ⟨(boxMem c sh).2, sd, .busy (k (boxMem c sh).1), n⟩ r' q := by
  obtain ⟨next, prev⟩ := sh
  obtain ⟨hr, hs, hprev, hpend, hnew, hnext⟩ := h
  cases r with
  | idle curr => cases hr
  | starting curr =>
      cases hr
      cases prev with
      | none => exact ⟨.advancing curr, rfl, hs, fun _ => rfl, hpend, hnew, hnext⟩
      | some prev => exact ⟨.reinstalling curr prev, rfl, hs, fun _ => rfl, hpend, hnew, hnext⟩
  | reinstalling curr prev' =>
      cases hr
      obtain rfl : prev = none := hprev trivial
      exact ⟨.ending curr false, rfl, hs, fun h => h.elim, hpend, hnew, hnext⟩
  | advancing curr =>
      cases hr
      obtain rfl : prev = none := hprev trivial
      cases next with
      | none =>
          exact ⟨.ending curr false, rfl, hs, fun h => h.elim, hpend, hnew, fun _ h => by cases h⟩
      | some next =>
          exact ⟨.retiring next curr, rfl, hs, fun _ => rfl, hpend, hnext next rfl,
            fun _ h => by cases h⟩
  | retiring next' prev' =>
      cases hr
      obtain rfl : prev = none := hprev trivial
      exact ⟨.ending next' true, rfl, hs, fun h => h.elim, hpend, hnew, hnext⟩
  | ending curr ok => cases hr

/-- Every step keeps the invariant, at some points of the two sides. -/
theorem at_step {s s' : BoxSystem T} (hstep : BoxStep s s') (h : s.At r q) :
    ∃ r' q', s'.At r' q' := by
  cases hstep with
  | sender c k =>
      obtain ⟨q', h'⟩ := at_sender h
      exact ⟨r, q', h'⟩
  | receiver c k =>
      obtain ⟨r', h'⟩ := at_receiver h
      exact ⟨r', q, h'⟩
  | @send sh rc n value =>
      obtain ⟨hr, hs, hprev, hpend, hnew, hnext⟩ := h
      obtain rfl : q = .idle := by cases q <;> first | rfl | cases hs
      refine ⟨r, .sending ⟨n, value⟩, hr, rfl, hprev, fun b hb => ?_, hnew, hnext⟩
      cases hb
      exact Nat.lt_succ_self n
  | collect =>
      obtain ⟨hr, hs, hprev, hpend, hnew, hnext⟩ := h
      obtain rfl : q = .idle := by cases q <;> first | rfl | cases hs
      exact ⟨r, .collecting, hr, rfl, hprev, hpend, hnew, hnext⟩
  | sent =>
      obtain ⟨hr, hs, hprev, hpend, hnew, hnext⟩ := h
      obtain rfl : q = .ending := by cases q <;> first | rfl | cases hs
      exact ⟨r, .idle, hr, rfl, hprev, hpend, hnew, hnext⟩
  | @update sh sd n curr =>
      obtain ⟨hr, hs, hprev, hpend, hnew, hnext⟩ := h
      obtain rfl : r = .idle curr := by
        cases r <;> cases hr
        rfl
      exact ⟨.starting curr, q, rfl, hs, fun h => h.elim, hpend, hnew, hnext⟩
  | @updated sh sd n curr ok =>
      obtain ⟨hr, hs, hprev, hpend, hnew, hnext⟩ := h
      obtain rfl : r = .ending curr ok := by
        cases r <;> cases hr
        rfl
      exact ⟨.idle curr, q, rfl, hs, fun h => h.elim, hpend, hnew, hnext⟩

end Steps

theorem at_of_steps {initial : T} {s : BoxSystem T}
    (h : Relation.ReflTransGen BoxStep (.channel initial) s) : ∃ r q, s.At r q := by
  induction h with
  | refl => exact ⟨_, _, at_channel initial⟩
  | tail _ hstep ih =>
      obtain ⟨r, q, hat⟩ := ih
      exact at_step hstep hat

/-- "only this thread is allowed to write Some(...) to prev". -/
theorem receiver_never_fails {initial : T} {s : BoxSystem T}
    (h : Relation.ReflTransGen BoxStep (.channel initial) s) : s.receiver ≠ .busy .fail := by
  obtain ⟨r, q, hat⟩ := at_of_steps h
  rw [hat.receiver]
  cases r <;> intro hfail <;> cases hfail

/-! ## What the last send needs -/

/-- The receiver on its own from now on: the end of the update in progress,
then `n` more updates. -/
def BoxSystem.afterUpdates (s : BoxSystem T) : Nat → Option (Boxed T × BoxShared T)
  | 0 =>
      match s.receiver with
      | .idle curr => some (curr, s.shared)
      | .busy p => (p.exec boxMem s.shared).map fun r => (r.1.1, r.2)
  | n + 1 => (s.afterUpdates n).bind fun x =>
      ((RealTimeBoxReceiver.update x.1).exec boxMem x.2).map fun r => (r.1.1, r.2)

/-- At most two updates from now on, `get` returns the box. -/
def BoxSystem.Delivers (s : BoxSystem T) (b : Boxed T) : Prop :=
  ∃ n ≤ 2, (s.afterUpdates n).map Prod.fst = some b

/-- The state after the swap that ends a send of `b`. -/
def BoxSystem.swapped (s : BoxSystem T) (b : Boxed T) : BoxSystem T :=
  { s with shared := (boxMem (.swapNext (some b)) s.shared).2, sender := .busy (.ret ()) }

/-- The receiver's next action puts a box into `prev`. -/
def BoxReceiver.HoldsBox : BoxReceiver T → Prop
  | .busy (.act (.swapPrev _) _) => True
  | _ => False

/-- `prev` is empty and nothing is on its way into it. -/
def BoxSystem.HasRoom (s : BoxSystem T) : Prop :=
  s.shared.prev = none ∧ ¬s.receiver.HoldsBox

theorem update_full (curr p : Boxed T) (next : Option (Boxed T)) :
    (RealTimeBoxReceiver.update curr).exec boxMem ⟨next, some p⟩ =
      some ((curr, false), ⟨next, some p⟩) := rfl

theorem update_room (curr b : Boxed T) :
    (RealTimeBoxReceiver.update curr).exec boxMem ⟨some b, none⟩ =
      some ((b, true), ⟨none, some curr⟩) := rfl

/-- Once `prev` is full between two updates, `get` never changes again. -/
theorem afterUpdates_full {s : BoxSystem T} {curr p : Boxed T} {next : Option (Boxed T)}
    (h : s.afterUpdates 0 = some (curr, ⟨next, some p⟩)) (n : Nat) :
    s.afterUpdates n = some (curr, ⟨next, some p⟩) := by
  induction n with
  | zero => exact h
  | succ n ih => rw [BoxSystem.afterUpdates, ih, Option.bind_some, update_full]; rfl

theorem afterUpdates_one {s : BoxSystem T} {curr b : Boxed T}
    (h : s.afterUpdates 0 = some (curr, ⟨some b, none⟩)) :
    s.afterUpdates 1 = some (b, ⟨none, some curr⟩) := by
  rw [BoxSystem.afterUpdates, h, Option.bind_some, update_room]
  rfl

/-- With the box just swapped in: it is current, or it can be taken by the
next update, or the receiver is stuck. -/
theorem settled {s : BoxSystem T} {r : Stage T} {b : Boxed T} (hr : s.receiver = r.thread)
    (hprev : r.Between → s.shared.prev = none) :
    ((s.swapped b).afterUpdates 0 = some (b, ⟨none, some r.newest⟩) ∧ s.HasRoom) ∨
    ((s.swapped b).afterUpdates 0 = some (r.newest, ⟨some b, none⟩) ∧ s.HasRoom) ∨
    ∃ p, (s.swapped b).afterUpdates 0 = some (r.newest, ⟨some b, some p⟩) ∧ ¬s.HasRoom := by
  obtain ⟨⟨next, prev⟩, sd, rc, n⟩ := s
  obtain rfl : rc = r.thread := hr
  cases r with
  | idle curr =>
      cases prev with
      | none => exact .inr (.inl ⟨rfl, rfl, id⟩)
      | some p => exact .inr (.inr ⟨p, rfl, fun h => by cases h.1⟩)
  | starting curr =>
      cases prev with
      | none => exact .inl ⟨rfl, rfl, id⟩
      | some p => exact .inr (.inr ⟨p, rfl, fun h => by cases h.1⟩)
  | reinstalling curr p =>
      obtain rfl : prev = none := hprev trivial
      exact .inr (.inr ⟨p, rfl, fun h => h.2 trivial⟩)
  | advancing curr =>
      obtain rfl : prev = none := hprev trivial
      exact .inl ⟨rfl, rfl, id⟩
  | retiring nxt p =>
      obtain rfl : prev = none := hprev trivial
      exact .inr (.inr ⟨p, rfl, fun h => h.2 trivial⟩)
  | ending curr ok =>
      cases prev with
      | none => exact .inr (.inl ⟨rfl, rfl, id⟩)
      | some p => exact .inr (.inr ⟨p, rfl, fun h => by cases h.1⟩)

/-- In every run, when a send comes to its final swap: the box arrives exactly
if there is room for it at that moment, and otherwise it never does. -/
theorem delivered_iff_room {initial : T} {s : BoxSystem T} {b : Boxed T}
    {k : Option (Boxed T) → BoxProg T Unit}
    (hreach : Relation.ReflTransGen BoxStep (.channel initial) s)
    (hs : s.sender = .busy (.act (.swapNext (some b)) k)) :
    ((s.swapped b).Delivers b ↔ s.HasRoom) ∧
      (¬s.HasRoom → ∀ n, ((s.swapped b).afterUpdates n).map Prod.fst ≠ some b) := by
  obtain ⟨r, q, hat⟩ := at_of_steps hreach
  obtain rfl : q = .swapping b := by
    have hq := hat.sender
    rw [hs] at hq
    cases q <;> cases hq
    rfl
  -- the box was allocated after everything the receiver has
  have hne : r.newest ≠ b := by
    rintro rfl
    exact Nat.lt_irrefl _ hat.newest
  rcases settled (b := b) hat.receiver hat.prev with ⟨h0, hroom⟩ | ⟨h0, hroom⟩ | ⟨p, h0, hroom⟩
  · exact ⟨⟨fun _ => hroom, fun _ => ⟨0, by decide, by rw [h0]; rfl⟩⟩, fun h => absurd hroom h⟩
  · refine ⟨⟨fun _ => hroom, fun _ => ⟨1, by decide, ?_⟩⟩, fun h => absurd hroom h⟩
    rw [afterUpdates_one h0]
    rfl
  · have hnever : ∀ n, ((s.swapped b).afterUpdates n).map Prod.fst ≠ some b := by
      intro n hn
      rw [afterUpdates_full h0] at hn
      exact hne (Option.some.inj hn)
    exact ⟨⟨fun ⟨n, _, hn⟩ => absurd hn (hnever n), fun h => absurd h hroom⟩, fun _ => hnever⟩

/-- A first send, up to its swap. -/
theorem reach_firstSend :
    Relation.ReflTransGen BoxStep (.channel 0) (⟨⟨none, none⟩,
      .busy (RealTimeBoxSender.swapIn ⟨1, 1⟩), .idle ⟨0, 0⟩, 2⟩ : BoxSystem Nat) :=
  .tail (.single (.send 1)) (.sender .takePrev fun _ => RealTimeBoxSender.swapIn ⟨1, 1⟩)

theorem delivered_iff_room_firstSend :
    ((⟨⟨none, none⟩, .busy (RealTimeBoxSender.swapIn ⟨1, 1⟩), .idle ⟨0, 0⟩, 2⟩ :
      BoxSystem Nat).swapped ⟨1, 1⟩).Delivers ⟨1, 1⟩ :=
  (delivered_iff_room reach_firstSend rfl).1.mpr ⟨rfl, id⟩

/-- A second send overtakes an update that has taken the first box and not yet
put the old one into `prev`. -/
theorem reach_overtaken :
    Relation.ReflTransGen BoxStep (.channel 0) (⟨⟨none, none⟩,
      .busy (RealTimeBoxSender.swapIn ⟨2, 2⟩),
      .busy (RealTimeBoxReceiver.retire ⟨1, 1⟩ ⟨0, 0⟩), 3⟩ : BoxSystem Nat) := by
  refine reach_firstSend.trans ?_
  refine .head (.sender (.swapNext (some ⟨1, 1⟩)) fun _ => .ret ()) ?_
  refine .head .sent (.head .update ?_)
  refine .head (.receiver _ _) (.head (.receiver _ _) ?_)
  refine .head (.send 2) (.single ?_)
  exact .sender .takePrev fun _ => RealTimeBoxSender.swapIn ⟨2, 2⟩

/-- The second value is then never returned by `get`. -/
theorem lost_update :
    ¬∀ (s : BoxSystem Nat) (b : Boxed Nat) (k : Option (Boxed Nat) → BoxProg Nat Unit),
      Relation.ReflTransGen BoxStep (.channel 0) s →
      s.sender = .busy (.act (.swapNext (some b)) k) →
      ∃ n, ((s.swapped b).afterUpdates n).map (·.1.value) = some b.value := by
  intro h
  obtain ⟨n, hn⟩ := h _ ⟨2, 2⟩ _ reach_overtaken rfl
  rw [afterUpdates_full rfl] at hn
  cases hn

end Inferno
