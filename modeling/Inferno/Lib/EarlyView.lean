import Mathlib.Tactic.Common

/-!
# A cell behind a queue, with an early view

A worker owns a cell; others change it with commands that wait in a queue. A
view is meant to show the cell: whoever sends `set v` writes `v` in the view
at once, and the worker clears the view together with the cell when it takes a
`clear` that finds something there.

`Settles cell view queue` says that the view shows something whenever the cell
holds something, now and while the queue is drained, and that both agree when
it is empty. It is kept by everything that can happen, except by a `set`
behind a `clear` that will still find the cell occupied (`settles_set`), and by
a view rewritten from the cell while another value is on its way
(`Settles.show`).
-/

namespace EarlyView

inductive Cmd (ν : Type) where
  | set (v : ν)
  | clear
deriving DecidableEq

variable {ν : Type}

def Settles : Option ν → Option ν → List (Cmd ν) → Prop
  | cell, view, [] => cell = view
  | cell, view, .set v :: queue => (cell.isSome → view.isSome) ∧ Settles (some v) view queue
  | cell, view, .clear :: queue =>
      (cell.isSome → view.isSome) ∧
        if cell.isSome then Settles none none queue else Settles none view queue

/-- Some `clear` in the queue will find the cell occupied. -/
def Clears : Bool → List (Cmd ν) → Bool
  | _, [] => false
  | _, .set _ :: queue => Clears true queue
  | occupied, .clear :: queue => occupied || Clears false queue

theorem Settles.shown {cell view : Option ν} {queue : List (Cmd ν)} (h : Settles cell view queue)
    (hcell : cell.isSome) : view.isSome := by
  cases queue with
  | nil =>
      obtain rfl : cell = view := h
      exact hcell
  | cons c queue => cases c <;> exact h.1 hcell

/-- A `set` that no `clear` before it undoes. -/
theorem settles_set {cell : Option ν} {queue : List (Cmd ν)} (v : ν)
    (hclear : Clears cell.isSome queue = false) :
    Settles cell (some v) (queue ++ [.set v]) := by
  induction queue generalizing cell with
  | nil => exact ⟨fun _ => rfl, rfl⟩
  | cons c queue ih =>
      cases c with
      | set w => exact ⟨fun _ => rfl, ih hclear⟩
      | clear =>
          obtain ⟨hempty, hrest⟩ := Bool.or_eq_false_iff.mp hclear
          refine ⟨fun _ => rfl, ?_⟩
          rw [hempty]
          exact ih hrest

/-- A `clear` at the end. -/
theorem Settles.clear {cell view : Option ν} {queue : List (Cmd ν)}
    (h : Settles cell view queue) : Settles cell view (queue ++ [.clear]) := by
  induction queue generalizing cell view with
  | nil =>
      obtain rfl : cell = view := h
      refine ⟨id, ?_⟩
      cases cell <;> exact rfl
  | cons c queue ih =>
      cases c with
      | set w => exact ⟨h.1, ih h.2⟩
      | clear =>
          refine ⟨h.1, ?_⟩
          have hrest := h.2
          split at hrest
          · next hcell => exact (if_pos hcell).mpr (ih hrest)
          · next hcell => exact (if_neg hcell).mpr (ih hrest)

/-- The view is written again from the cell, and no other value is last. -/
theorem Settles.show {v : ν} {view : Option ν} {queue : List (Cmd ν)}
    (h : Settles (some v) view queue)
    (hlast : ∀ w, queue.getLast? = some (.set w) → w = v) : Settles (some v) (some v) queue := by
  -- the cell stays occupied up to the first `clear`, after which the view is new
  suffices hgen : ∀ (queue : List (Cmd ν)) (w : ν), Settles (some w) view queue →
      (∀ u, queue.getLast? = some (.set u) → u = v) → (queue = [] → w = v) →
      Settles (some w) (some v) queue from hgen queue v h hlast fun _ => rfl
  intro queue
  induction queue with
  | nil =>
      intro w _ _ hw
      exact congrArg some (hw rfl)
  | cons c queue ih =>
      intro w h hlast _
      cases c with
      | set u =>
          refine ⟨fun _ => rfl, ih u h.2 (fun u' hu' => ?_) fun hnil => ?_⟩
          · cases queue with
            | nil => cases hu'
            | cons c' queue => exact hlast u' hu'
          · exact hlast u (by rw [hnil]; rfl)
      | clear => exact ⟨fun _ => rfl, h.2⟩

end EarlyView
