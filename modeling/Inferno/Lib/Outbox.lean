import Mathlib.Tactic.Common

/-!
# Commands on their way

One side keeps tables and tells a worker about every change with a command in
a queue; the worker takes the commands one by one. `after` says what a command
makes of the worker's state, or of the part of it the tables speak about, and
`takes` which commands the worker can take in a state.

`drained` is the state the worker will have when the queue is empty, and
`Accepted` says that every command can be taken when its turn comes. The side
that sends reasons about the end of the queue (`Accepted.snoc`,
`drained_snoc`), the worker about its head (`Accepted.cons_iff`,
`drained_cons`).
-/

namespace Outbox

variable {S C : Type} (after : S → C → S) (takes : S → C → Prop)

def drained (s : S) (queue : List C) : S := queue.foldl after s

def Accepted : S → List C → Prop
  | _, [] => True
  | s, c :: queue => takes s c ∧ Accepted (after s c) queue

theorem drained_nil (s : S) : drained after s [] = s := rfl

theorem drained_cons (s : S) (c : C) (queue : List C) :
    drained after s (c :: queue) = drained after (after s c) queue := rfl

theorem drained_snoc (s : S) (queue : List C) (c : C) :
    drained after s (queue ++ [c]) = after (drained after s queue) c := by
  rw [drained, List.foldl_append]
  rfl

theorem Accepted.cons_iff {s : S} {c : C} {queue : List C} :
    Accepted after takes s (c :: queue) ↔ takes s c ∧ Accepted after takes (after s c) queue :=
  Iff.rfl

variable {after takes}

theorem Accepted.snoc {s : S} {queue : List C} {c : C} (h : Accepted after takes s queue)
    (hc : takes (drained after s queue) c) : Accepted after takes s (queue ++ [c]) := by
  induction queue generalizing s with
  | nil => exact ⟨hc, trivial⟩
  | cons c' queue ih => exact ⟨h.1, ih h.2 hc⟩

/-- What is taken may become more. -/
theorem Accepted.mono {takes' : S → C → Prop} {s : S} {queue : List C}
    (h : Accepted after takes s queue) (hmono : ∀ s c, takes s c → takes' s c) :
    Accepted after takes' s queue := by
  induction queue generalizing s with
  | nil => trivial
  | cons c queue ih => exact ⟨hmono s c h.1, ih h.2⟩

end Outbox
