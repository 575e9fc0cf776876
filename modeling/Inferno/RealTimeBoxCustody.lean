import Inferno.RealTimeBox
import Mathlib.Data.List.Nodup

/-!
# Custody of the boxes

The programs of `Inferno.RealTimeBox` once more, with the moves of boxes
written out: what a thread takes is in its hand until it puts it into a slot,
into `curr`, or to its end. Forgetting the hands gives the programs and the
steps there (`forget_step`).

In every run each box is in one place, `curr` only goes forward, and the
receiver never drops a box (`custody_of_steps`).
-/

namespace Inferno

variable {T : Type}

/-! ## The channel, with hands -/

inductive CustodyOp (T : Type) where
  | slot (op : BoxOp T)
  /-- `mem::replace(&mut self.curr, next)`. -/
  | replace (next : Boxed T)
  | drop (b : Option (Boxed T))

abbrev CustodyOp.Res : CustodyOp T → Type
  | slot _ => Option (Boxed T)
  | replace _ => Boxed T
  | drop _ => Unit

abbrev CustodyIface (T : Type) : Iface := ⟨CustodyOp T, CustodyOp.Res⟩

abbrev CustodyProg (T β : Type) := Prog (CustodyIface T) β

namespace CustodyProg

def slot (op : BoxOp T) : CustodyProg T (Option (Boxed T)) := .act (.slot op) .ret

def replace (next : Boxed T) : CustodyProg T (Boxed T) := .act (.replace next) .ret

def drop (b : Option (Boxed T)) : CustodyProg T Unit := .act (.drop b) .ret

end CustodyProg

open CustodyProg

/-- The box that an operation moves into its slot. -/
@[simp] def BoxOp.given : BoxOp T → Option (Boxed T)
  | swapNext value | swapPrev value => value
  | takeNext | takePrev => none

/-- What a thread holds, and what it has dropped. -/
structure Hand (T : Type) where
  held : List (Boxed T)
  dropped : List (Boxed T)

namespace Hand

@[simp] def give (h : Hand T) : Option (Boxed T) → Hand T
  | some b => { h with held := h.held.eraseP (·.id == b.id) }
  | none => h

@[simp] def receive (h : Hand T) (b : Option (Boxed T)) : Hand T := { h with held := b.toList ++ h.held }

@[simp] def drop (h : Hand T) (b : Option (Boxed T)) : Hand T :=
  { h.give b with dropped := h.dropped ++ b.toList }

end Hand

/-- The slots and the receiver's own box, and all that have been in its place. -/
structure BoxMemory (T : Type) where
  shared : BoxShared T
  curr : Boxed T
  currs : List (Boxed T)

@[simp] def custodyMem : Handler (CustodyIface T) (BoxMemory T × Hand T)
  | .slot op, (m, h) =>
      ((boxMem op m.shared).1, { m with shared := (boxMem op m.shared).2 },
        (h.give op.given).receive (boxMem op m.shared).1)
  | .replace next, (m, h) =>
      (m.curr, { m with curr := next, currs := m.currs ++ [next] },
        (h.give (some next)).receive (some m.curr))
  | .drop b, (m, h) => ((), m, h.drop b)

namespace CustodySender

def collectGarbage : CustodyProg T Unit := do
  let prev ← slot .takePrev
  drop prev

def swapIn (value : Boxed T) : CustodyProg T Unit := do
  let unusedNext ← slot (.swapNext (some value))
  drop unusedNext

def send (value : Boxed T) : CustodyProg T Unit := do
  collectGarbage
  swapIn value

end CustodySender

namespace CustodyReceiver

/-- Puts a box into `prev`; what was there goes at the end of its scope. -/
def putPrev (prev : Boxed T) (ok : Bool) : CustodyProg T Bool := do
  let swappedPrev ← slot (.swapPrev (some prev))
  Prog.assert swappedPrev.isNone
  drop swappedPrev
  pure ok

def advance : CustodyProg T Bool := do
  match ← slot .takeNext with
  | some next => do
      let prev ← replace next
      putPrev prev true
  | none => pure false

def update : CustodyProg T Bool := do
  match ← slot .takePrev with
  | some prev => putPrev prev false
  | none => advance

end CustodyReceiver

/-! ## Sender and receiver interleaved -/

/-- A thread without a program is between two calls. -/
structure CustodySystem (T : Type) where
  mem : BoxMemory T
  senderHand : Hand T
  receiverHand : Hand T
  created : List (Boxed T)
  sender : Option (CustodyProg T Unit)
  receiver : Option (CustodyProg T Bool)

namespace CustodySystem

def channel (initial : T) : CustodySystem T where
  mem := ⟨⟨none, none⟩, ⟨0, initial⟩, [⟨0, initial⟩]⟩
  senderHand := ⟨[], []⟩
  receiverHand := ⟨[], []⟩
  created := [⟨0, initial⟩]
  sender := none
  receiver := none

/-- All boxes, place by place. -/
@[simp] def places (s : CustodySystem T) : List (Boxed T) :=
  s.senderHand.held ++ s.mem.shared.next.toList ++ s.receiverHand.held ++ [s.mem.curr] ++
    s.mem.shared.prev.toList ++ (s.senderHand.dropped ++ s.receiverHand.dropped)

end CustodySystem

inductive CustodyStep : CustodySystem T → CustodySystem T → Prop
  | send {m h g cr r} (value : T) : CustodyStep ⟨m, h, g, cr, none, r⟩
      ⟨m, h.receive (some ⟨cr.length, value⟩), g, cr ++ [⟨cr.length, value⟩],
        some (CustodySender.send ⟨cr.length, value⟩), r⟩
  | collect {m h g cr r} : CustodyStep ⟨m, h, g, cr, none, r⟩
      ⟨m, h, g, cr, some CustodySender.collectGarbage, r⟩
  | sender {m h g cr r} (c : CustodyOp T) (k : c.Res → CustodyProg T Unit) :
      CustodyStep ⟨m, h, g, cr, some (.act c k), r⟩
        ⟨(custodyMem c (m, h)).2.1, (custodyMem c (m, h)).2.2, g, cr,
          some (k (custodyMem c (m, h)).1), r⟩
  | sent {m h g cr r} : CustodyStep ⟨m, h, g, cr, some (.ret ()), r⟩ ⟨m, h, g, cr, none, r⟩
  | update {m h g cr q} : CustodyStep ⟨m, h, g, cr, q, none⟩
      ⟨m, h, g, cr, q, some CustodyReceiver.update⟩
  | receiver {m h g cr q} (c : CustodyOp T) (k : c.Res → CustodyProg T Bool) :
      CustodyStep ⟨m, h, g, cr, q, some (.act c k)⟩
        ⟨(custodyMem c (m, g)).2.1, h, (custodyMem c (m, g)).2.2, cr, q,
          some (k (custodyMem c (m, g)).1)⟩
  | updated {m h g cr q ok} : CustodyStep ⟨m, h, g, cr, q, some (.ret ok)⟩
      ⟨m, h, g, cr, q, none⟩

/-! ## Without the hands -/

namespace CustodyProg

/-- A sender's program without its drops. -/
def forgetSender : CustodyProg T Unit → BoxProg T Unit
  | .ret u => .ret u
  | .act (.slot op) k => .act op fun r => forgetSender (k r)
  | .act (.replace next) k => forgetSender (k next)
  | .act (.drop _) k => forgetSender (k ())
  | .fail => .fail

/-- A receiver's program with the current box in its result. -/
def forgetReceiver : Boxed T → CustodyProg T Bool → BoxProg T (Boxed T × Bool)
  | curr, .ret ok => .ret (curr, ok)
  | curr, .act (.slot op) k => .act op fun r => forgetReceiver curr (k r)
  | curr, .act (.replace next) k => forgetReceiver next (k curr)
  | curr, .act (.drop _) k => forgetReceiver curr (k ())
  | _, .fail => .fail

theorem forgetSender_send (b : Boxed T) :
    forgetSender (CustodySender.send b) = RealTimeBoxSender.send b := rfl

theorem forgetSender_collectGarbage :
    forgetSender (CustodySender.collectGarbage : CustodyProg T Unit) =
      RealTimeBoxSender.collectGarbage := rfl

theorem forgetReceiver_putPrev (curr prev : Boxed T) (ok : Bool) :
    forgetReceiver curr (CustodyReceiver.putPrev prev ok) =
      .act (.swapPrev (some prev)) fun swappedPrev =>
        (Prog.assert swappedPrev.isNone).bind fun _ => .ret (curr, ok) := by
  refine congrArg (Prog.act _) (funext fun swappedPrev => ?_)
  cases swappedPrev <;> rfl

theorem forgetReceiver_update (curr : Boxed T) :
    forgetReceiver curr CustodyReceiver.update = RealTimeBoxReceiver.update curr := by
  refine congrArg (Prog.act _) (funext fun prev => ?_)
  cases prev with
  | some prev => exact forgetReceiver_putPrev curr prev false
  | none =>
      refine congrArg (Prog.act _) (funext fun next => ?_)
      cases next with
      | some next => exact forgetReceiver_putPrev next curr true
      | none => rfl

end CustodyProg

namespace CustodySystem

def forget (s : CustodySystem T) : BoxSystem T where
  shared := s.mem.shared
  sender := match s.sender with
    | none => .idle
    | some p => .busy p.forgetSender
  receiver := match s.receiver with
    | none => .idle s.mem.curr
    | some p => .busy (p.forgetReceiver s.mem.curr)
  allocated := s.created.length

theorem forget_channel (initial : T) : (channel initial).forget = BoxSystem.channel initial := rfl

end CustodySystem

/-! ## The points reached -/

/-- The points of the sender. -/
inductive SenderPoint (T : Type) where
  | idle
  | sending (b : Boxed T)
  | disposing (b : Boxed T) (prev : Option (Boxed T))
  | swapping (b : Boxed T)
  | collecting
  | ending (garbage : Option (Boxed T))
  | done

namespace SenderPoint

def thread : SenderPoint T → Option (CustodyProg T Unit)
  | idle => none
  | sending b => some (CustodySender.send b)
  | disposing b prev => some (.act (.drop prev) fun _ => CustodySender.swapIn b)
  | swapping b => some (CustodySender.swapIn b)
  | collecting => some CustodySender.collectGarbage
  | ending garbage => some (drop garbage)
  | done => some (.ret ())

@[simp] def held : SenderPoint T → List (Boxed T)
  | sending b | swapping b => [b]
  | disposing b prev => prev.toList ++ [b]
  | ending garbage => garbage.toList
  | idle | collecting | done => []

/-- The box that is still to be put into `next`. -/
@[simp] def pending : SenderPoint T → List (Boxed T)
  | sending b | swapping b | disposing b _ => [b]
  | idle | collecting | ending _ | done => []

end SenderPoint

/-- The points of the receiver. -/
inductive ReceiverPoint (T : Type) where
  | idle
  | starting
  | putting (prev : Boxed T) (ok : Bool)
  | advancing
  | replacing (next : Boxed T)
  | ending (ok : Bool)
  | done (ok : Bool)

namespace ReceiverPoint

def thread : ReceiverPoint T → Option (CustodyProg T Bool)
  | idle => none
  | starting => some CustodyReceiver.update
  | putting prev ok => some (CustodyReceiver.putPrev prev ok)
  | advancing => some CustodyReceiver.advance
  | replacing next => some (.act (.replace next) fun prev => CustodyReceiver.putPrev prev true)
  | ending ok => some (.act (.drop none) fun _ => .ret ok)
  | done ok => some (.ret ok)

@[simp] def held : ReceiverPoint T → List (Boxed T)
  | putting prev _ => [prev]
  | replacing next => [next]
  | idle | starting | advancing | ending _ | done _ => []

/-- The box that is about to be current. -/
@[simp] def incoming : ReceiverPoint T → List (Boxed T)
  | replacing next => [next]
  | idle | starting | putting _ _ | advancing | ending _ | done _ => []

/-- `prev` has been found empty or emptied, and nobody else fills it. -/
def Between : ReceiverPoint T → Prop
  | putting _ _ | advancing | replacing _ => True
  | idle | starting | ending _ | done _ => False

end ReceiverPoint

/-- The invariant of a run, with the points the two sides have reached. -/
structure CustodySystem.At (s : CustodySystem T) (q : SenderPoint T) (r : ReceiverPoint T) :
    Prop where
  sender : s.sender = q.thread
  receiver : s.receiver = r.thread
  senderHeld : s.senderHand.held = q.held
  receiverHeld : s.receiverHand.held = r.held
  dropped : s.receiverHand.dropped = []
  prev : r.Between → s.mem.shared.prev = none
  order : (s.mem.currs ++ r.incoming ++ s.mem.shared.next.toList ++ q.pending).Sublist s.created
  last : s.mem.currs.getLast? = some s.mem.curr
  places : s.places.Perm s.created
  ids : s.created.map Boxed.id = List.range s.created.length

theorem custody_channel (initial : T) : (CustodySystem.channel initial).At .idle .idle :=
  ⟨rfl, rfl, rfl, rfl, rfl, fun h => h.elim, .refl _, rfl, .refl _, rfl⟩

section Steps

variable {m : BoxMemory T} {h g : Hand T} {cr : List (Boxed T)} {q : SenderPoint T}
  {r : ReceiverPoint T} {c : CustodyOp T}

theorem places_perm {l l' : List (Boxed T)} (h : ∀ [DecidableEq T] b, l.count b = l'.count b) :
    l.Perm l' := by
  classical
  exact List.perm_iff_count.mpr h

/-- A put of the sender's pending box replaces what was in `next`. -/
theorem order_swapIn {b : Boxed T} {front : List (Boxed T)} {next : Option (Boxed T)}
    (h : (front ++ next.toList ++ [b]).Sublist cr) : (front ++ [b] ++ []).Sublist cr := by
  rw [List.append_nil]
  refine List.Sublist.trans ?_ h
  exact (List.sublist_append_left front _).append_right [b]

theorem custody_sender {p : Option (CustodyProg T Bool)} {k : c.Res → CustodyProg T Unit}
    (hat : CustodySystem.At ⟨m, h, g, cr, some (.act c k), p⟩ q r) :
    ∃ q', CustodySystem.At ⟨(custodyMem c (m, h)).2.1, (custodyMem c (m, h)).2.2, g, cr,
      some (k (custodyMem c (m, h)).1), p⟩ q' r := by
  obtain ⟨hs, hr, hheld, hgheld, hdropped, hprev, horder, hlast, hplaces, hids⟩ := hat
  obtain ⟨⟨next, prev⟩, curr, currs⟩ := m
  obtain ⟨held, dropped⟩ := h
  obtain rfl : held = q.held := hheld
  cases q with
  | idle => cases hs
  | sending b =>
      cases hs
      refine ⟨.disposing b prev, rfl, hr, rfl, hgheld, hdropped, fun _ => rfl, horder, hlast,
        (places_perm fun b' => ?_).trans hplaces, hids⟩
      simp [boxMem, List.count_append, List.count_cons]
      omega
  | disposing b prev' =>
      cases hs
      refine ⟨.swapping b, rfl, hr, by cases prev' <;> simp, hgheld, hdropped, hprev, horder,
        hlast, (places_perm fun b' => ?_).trans hplaces, hids⟩
      cases prev' with
      | none => simp
      | some b' =>
          simp [List.count_append, List.count_cons]
          omega
  | swapping b =>
      cases hs
      refine ⟨.ending next, rfl, hr, by simp [boxMem], hgheld, hdropped, hprev, ?_, hlast,
        (places_perm fun b' => ?_).trans hplaces, hids⟩
      · exact order_swapIn horder
      · simp [boxMem, List.count_append, List.count_cons]
        omega
  | collecting =>
      cases hs
      refine ⟨.ending prev, rfl, hr, by simp [boxMem], hgheld, hdropped, fun _ => rfl, horder,
        hlast, (places_perm fun b' => ?_).trans hplaces, hids⟩
      simp [boxMem, List.count_append, List.count_cons]
      omega
  | ending garbage =>
      cases hs
      refine ⟨.done, rfl, hr, by cases garbage <;> simp, hgheld, hdropped, hprev, horder, hlast,
        (places_perm fun b' => ?_).trans hplaces, hids⟩
      cases garbage with
      | none => simp
      | some b' =>
          simp [List.count_append, List.count_cons]
          omega
  | done => cases hs

theorem custody_receiver {p : Option (CustodyProg T Unit)} {k : c.Res → CustodyProg T Bool}
    (hat : CustodySystem.At ⟨m, h, g, cr, p, some (.act c k)⟩ q r) :
    ∃ r', CustodySystem.At ⟨(custodyMem c (m, g)).2.1, h, (custodyMem c (m, g)).2.2, cr, p,
      some (k (custodyMem c (m, g)).1)⟩ q r' := by
  obtain ⟨hs, hr, hheld, hgheld, hdropped, hprev, horder, hlast, hplaces, hids⟩ := hat
  obtain ⟨⟨next, prev⟩, curr, currs⟩ := m
  obtain ⟨held, dropped⟩ := g
  obtain rfl : held = r.held := hgheld
  obtain rfl : dropped = [] := hdropped
  cases r with
  | idle => cases hr
  | starting =>
      cases hr
      cases prev with
      | none =>
          exact ⟨.advancing, hs, rfl, hheld, rfl, rfl, fun _ => rfl, horder, hlast, hplaces, hids⟩
      | some prev =>
          refine ⟨.putting prev false, hs, rfl, hheld, rfl, rfl, fun _ => rfl, horder, hlast,
            (places_perm fun b' => ?_).trans hplaces, hids⟩
          simp [boxMem, List.count_append, List.count_cons]
          omega
  | putting prev' ok =>
      cases hr
      obtain rfl : prev = none := hprev trivial
      refine ⟨.ending ok, hs, rfl, hheld, by simp [boxMem], rfl, fun h => h.elim, horder, hlast,
        (places_perm fun b' => ?_).trans hplaces, hids⟩
      simp [boxMem, List.count_append, List.count_cons]
      omega
  | advancing =>
      cases hr
      obtain rfl : prev = none := hprev trivial
      cases next with
      | none =>
          exact ⟨.done false, hs, rfl, hheld, rfl, rfl, fun h => h.elim, horder, hlast, hplaces,
            hids⟩
      | some next =>
          refine ⟨.replacing next, hs, rfl, hheld, rfl, rfl, fun _ => rfl, ?_, hlast,
            (places_perm fun b' => ?_).trans hplaces, hids⟩
          · simpa [boxMem] using horder
          · simp [boxMem, List.count_append, List.count_cons]
  | replacing next' =>
      cases hr
      obtain rfl : prev = none := hprev trivial
      refine ⟨.putting curr true, hs, rfl, hheld, by simp, rfl, fun _ => rfl, ?_, by simp,
        (places_perm fun b' => ?_).trans hplaces, hids⟩
      · simpa using horder
      · simp [List.count_append, List.count_cons]
        omega
  | ending ok =>
      cases hr
      exact ⟨.done ok, hs, rfl, hheld, rfl, rfl, fun h => h.elim, horder, hlast, hplaces, hids⟩
  | done ok => cases hr

/-- Every step keeps the invariant, at some points of the two sides. -/
theorem custody_step {s s' : CustodySystem T} (hstep : CustodyStep s s') (hat : s.At q r) :
    ∃ q' r', s'.At q' r' := by
  cases hstep with
  | sender c k =>
      obtain ⟨q', hat'⟩ := custody_sender hat
      exact ⟨q', r, hat'⟩
  | receiver c k =>
      obtain ⟨r', hat'⟩ := custody_receiver hat
      exact ⟨q, r', hat'⟩
  | @send m h g cr p value =>
      obtain ⟨hs, hr, hheld, hgheld, hdropped, hprev, horder, hlast, hplaces, hids⟩ := hat
      obtain rfl : q = .idle := by cases q <;> first | rfl | cases hs
      obtain ⟨held, dropped⟩ := h
      obtain rfl : held = [] := hheld
      refine ⟨.sending ⟨cr.length, value⟩, r, rfl, hr, by simp, hgheld, hdropped, hprev, ?_,
        hlast, ?_, ?_⟩
      · rw [SenderPoint.pending, List.append_nil] at horder
        exact horder.append_right _
      · refine List.Perm.trans ?_ (hplaces.append_right [⟨cr.length, value⟩])
        refine places_perm fun b => ?_
        simp [List.count_append, List.count_cons]
        omega
      · rw [List.map_append, hids, List.length_append, List.range_add]
        simp
  | collect =>
      obtain ⟨hs, hr, hheld, hgheld, hdropped, hprev, horder, hlast, hplaces, hids⟩ := hat
      obtain rfl : q = .idle := by cases q <;> first | rfl | cases hs
      exact ⟨.collecting, r, rfl, hr, hheld, hgheld, hdropped, hprev, horder, hlast, hplaces, hids⟩
  | sent =>
      obtain ⟨hs, hr, hheld, hgheld, hdropped, hprev, horder, hlast, hplaces, hids⟩ := hat
      obtain rfl : q = .done := by cases q <;> first | rfl | cases hs
      exact ⟨.idle, r, rfl, hr, hheld, hgheld, hdropped, hprev, horder, hlast, hplaces, hids⟩
  | update =>
      obtain ⟨hs, hr, hheld, hgheld, hdropped, hprev, horder, hlast, hplaces, hids⟩ := hat
      obtain rfl : r = .idle := by cases r <;> first | rfl | cases hr
      exact ⟨q, .starting, hs, rfl, hheld, hgheld, hdropped, fun h => h.elim, horder, hlast,
        hplaces, hids⟩
  | @updated m h g cr p ok =>
      obtain ⟨hs, hr, hheld, hgheld, hdropped, hprev, horder, hlast, hplaces, hids⟩ := hat
      obtain rfl : r = .done ok := by
        cases r <;> cases hr
        rfl
      exact ⟨q, .idle, hs, rfl, hheld, hgheld, hdropped, fun h => h.elim, horder, hlast,
        hplaces, hids⟩

end Steps

theorem custody_at {initial : T} {s : CustodySystem T}
    (h : Relation.ReflTransGen CustodyStep (.channel initial) s) : ∃ q r, s.At q r := by
  induction h with
  | refl => exact ⟨_, _, custody_channel initial⟩
  | tail _ hstep ih =>
      obtain ⟨q, r, hat⟩ := ih
      exact custody_step hstep hat

/-- A step is one of the system without hands, or a move that it does not see. -/
theorem forget_step {s s' : CustodySystem T} {q : SenderPoint T} {r : ReceiverPoint T}
    (hstep : CustodyStep s s') (hat : s.At q r) :
    s'.forget = s.forget ∨ BoxStep s.forget s'.forget := by
  cases hstep with
  | @send m h g cr p value =>
      refine .inr ?_
      have hlen : (cr ++ [(⟨cr.length, value⟩ : Boxed T)]).length = cr.length + 1 := by simp
      unfold CustodySystem.forget
      rw [hlen]
      exact .send value
  | collect => exact .inr .collect
  | sender c k =>
      have hs := hat.sender
      cases q with
      | idle => cases hs
      | sending b =>
          cases hs
          exact .inr (.sender .takePrev _)
      | disposing b prev =>
          cases hs
          exact .inl rfl
      | swapping b =>
          cases hs
          exact .inr (.sender (.swapNext (some b)) _)
      | collecting =>
          cases hs
          exact .inr (.sender .takePrev _)
      | ending garbage =>
          cases hs
          exact .inl rfl
      | done => cases hs
  | sent => exact .inr .sent
  | @update m h g cr p =>
      refine .inr ?_
      unfold CustodySystem.forget
      dsimp only
      rw [forgetReceiver_update]
      exact .update
  | receiver c k =>
      cases c with
      | slot op => exact .inr (.receiver op _)
      | replace next => exact .inl rfl
      | drop b => exact .inl rfl
  | updated => exact .inr .updated

/-- A run is one of the system without hands. -/
theorem forget_steps {initial : T} {s : CustodySystem T}
    (h : Relation.ReflTransGen CustodyStep (.channel initial) s) :
    Relation.ReflTransGen BoxStep (.channel initial) s.forget := by
  induction h with
  | refl => exact .refl
  | tail hsteps hstep ih =>
      obtain ⟨q, r, hat⟩ := custody_at hsteps
      rcases forget_step hstep hat with heq | hbox
      · rw [heq]
        exact ih
      · exact ih.tail hbox

/-! ## What holds in every run -/

/-- The current boxes are some of those sent, in their order; every box is in
one place; the receiver drops none, and its assertions hold. -/
theorem custody_of_steps {initial : T} {s : CustodySystem T}
    (h : Relation.ReflTransGen CustodyStep (.channel initial) s) :
    s.mem.currs.Sublist s.created ∧ s.mem.currs.getLast? = some s.mem.curr ∧
      s.created.Nodup ∧ s.places.Perm s.created ∧ s.receiverHand.dropped = [] ∧
      s.receiver ≠ some .fail := by
  obtain ⟨q, r, hat⟩ := custody_at h
  refine ⟨?_, hat.last, ?_, hat.places, hat.dropped, ?_⟩
  · have horder := hat.order
    rw [List.append_assoc, List.append_assoc] at horder
    exact (List.sublist_append_left _ _).trans horder
  · refine List.Nodup.of_map Boxed.id ?_
    rw [hat.ids]
    exact List.nodup_range
  · rw [hat.receiver]
    cases r <;> intro hfail <;> cases hfail

/-- A send, and the update that receives it. -/
theorem reach_received : Relation.ReflTransGen CustodyStep (.channel 0)
    (⟨⟨⟨none, some ⟨0, 0⟩⟩, ⟨1, 7⟩, [⟨0, 0⟩, ⟨1, 7⟩]⟩, ⟨[], []⟩, ⟨[], []⟩, [⟨0, 0⟩, ⟨1, 7⟩], none,
      none⟩ : CustodySystem Nat) := by
  refine .head (.send 7) ?_
  refine .head (.sender _ _) (.head (.sender _ _) ?_)
  refine .head (.sender _ _) (.head (.sender _ _) (.head .sent ?_))
  refine .head .update ?_
  refine .head (.receiver _ _) (.head (.receiver _ _) ?_)
  refine .head (.receiver _ _) (.head (.receiver _ _) (.head (.receiver _ _) ?_))
  exact .single .updated

theorem custody_received :
    [(⟨0, 0⟩ : Boxed Nat), ⟨1, 7⟩].Sublist [⟨0, 0⟩, ⟨1, 7⟩] :=
  (custody_of_steps reach_received).1

end Inferno
