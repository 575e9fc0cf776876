import Mathlib.Data.Set.Insert
import Mathlib.Logic.Function.Basic
import Mathlib.Logic.Relation

/-!
# Mark, then look

Claims on resources, without a lock. Each claim belongs to an owner; the owner marks
the resource, then looks for the marks of the others, and takes the resource when it
has found every other owner without a mark, each at some time of the look. A mark
stays while a claim of its owner looks for it or holds it.

Two owners never hold the same resource (`exclusive`): of two claims that look at the
same time, the one that began later was marked when it did, and is not cleared by the
other from then on.
-/

namespace MarkAndLook

/-- Where a claim stands; a look knows whom it has found without a mark. -/
inductive Stage (O R : Type) where
  | idle
  | looking (resource : R) (cleared : Set O)
  | holding (resource : R)

/-- The stage is about the resource. -/
def Stage.Concerns {O R : Type} (s : Stage O R) (r : R) : Prop := match s with
  | .idle => False
  | .looking r' _ => r' = r
  | .holding r' => r' = r

/-- The owner does not stand in the way any more: it was found without a mark, or the
look is over. -/
def Stage.Cleared {O R : Type} (s : Stage O R) (r : R) (o : O) : Prop := match s with
  | .idle => False
  | .looking r' cleared => r' = r ∧ o ∈ cleared
  | .holding r' => r' = r

structure State (O R C : Type) where
  marked : O → R → Prop
  stage : C → Stage O R

section

variable {O R C : Type} [DecidableEq C]

def start : State O R C where
  marked := fun _ _ => False
  stage := fun _ => .idle

def State.setStage (s : State O R C) (c : C) (stage : Stage O R) : State O R C :=
  { s with stage := Function.update s.stage c stage }

/-- What can happen. -/
inductive Step (owner : C → O) (s : State O R C) : State O R C → Prop where
  | mark (marked : O → R → Prop) (h : ∀ o r, s.marked o r → marked o r) :
      Step owner s { s with marked := marked }
  | unmark (marked : O → R → Prop)
      (h : ∀ o r, s.marked o r → marked o r ∨ ∀ c, owner c = o → ¬(s.stage c).Concerns r) :
      Step owner s { s with marked := marked }
  | look (c : C) (r : R) (hidle : s.stage c = .idle) (hmarked : s.marked (owner c) r) :
      Step owner s (s.setStage c (.looking r ∅))
  | clear (c : C) (r : R) (cleared : Set O) (o : O) (hlook : s.stage c = .looking r cleared)
      (hfree : ¬s.marked o r) : Step owner s (s.setStage c (.looking r (insert o cleared)))
  | take (c : C) (r : R) (cleared : Set O) (hlook : s.stage c = .looking r cleared)
      (hall : ∀ o, o ≠ owner c → o ∈ cleared) : Step owner s (s.setStage c (.holding r))
  | drop (c : C) : Step owner s (s.setStage c .idle)

/-- What is looked for or held is marked, and no two owners have cleared each other. -/
structure Ordered (owner : C → O) (s : State O R C) : Prop where
  kept : ∀ c r, (s.stage c).Concerns r → s.marked (owner c) r
  ordered : ∀ c d r, owner c ≠ owner d →
    ¬((s.stage c).Cleared r (owner d) ∧ (s.stage d).Cleared r (owner c))

end

section

variable {O R C : Type} {owner : C → O} {s s' : State O R C} {c : C} {r : R} {o : O}

theorem Stage.Cleared.concerns {stage : Stage O R} (h : stage.Cleared r o) : stage.Concerns r := by
  cases stage with
  | idle => exact h
  | looking r' cleared => exact h.1
  | holding r' => exact h

/-- Other marks, with every mark that is needed. -/
theorem Ordered.remark (h : Ordered owner s) {marked : O → R → Prop}
    (hmarked : ∀ c r, (s.stage c).Concerns r → marked (owner c) r) :
    Ordered owner { s with marked := marked } :=
  ⟨hmarked, h.ordered⟩

variable [DecidableEq C]

theorem State.setStage_self (s : State O R C) (c : C) (stage : Stage O R) :
    (s.setStage c stage).stage c = stage := Function.update_self _ _ _

theorem State.setStage_of_ne (s : State O R C) {c d : C} (h : d ≠ c) (stage : Stage O R) :
    (s.setStage c stage).stage d = s.stage d := Function.update_of_ne h _ _

/-- A claim moves on: it is still marked, and whom it has newly cleared does not look
for the resource or hold it with the claim's owner cleared. -/
theorem Ordered.move (h : Ordered owner s) {stage : Stage O R}
    (hkept : ∀ r, stage.Concerns r → s.marked (owner c) r)
    (hclear : ∀ d r, owner d ≠ owner c → stage.Cleared r (owner d) →
      ¬(s.stage d).Cleared r (owner c)) :
    Ordered owner (s.setStage c stage) := by
  refine ⟨fun d r hd => ?_, fun d e r hne hboth => ?_⟩
  · by_cases hdc : d = c
    · subst hdc
      rw [State.setStage_self] at hd
      exact hkept r hd
    · rw [State.setStage_of_ne s hdc] at hd
      exact h.kept d r hd
  · obtain ⟨hd, he⟩ := hboth
    by_cases hdc : d = c
    · subst hdc
      have hed : e ≠ d := fun heq => hne (congrArg owner heq.symm)
      rw [State.setStage_self] at hd
      rw [State.setStage_of_ne s hed] at he
      exact hclear e r (Ne.symm hne) hd he
    · rw [State.setStage_of_ne s hdc] at hd
      by_cases hec : e = c
      · subst hec
        rw [State.setStage_self] at he
        exact hclear d r hne he hd
      · rw [State.setStage_of_ne s hec] at he
        exact h.ordered d e r hne ⟨hd, he⟩

theorem Ordered.step (h : Ordered owner s) (hstep : Step owner s s') : Ordered owner s' := by
  cases hstep with
  | mark marked hmore => exact h.remark fun c r hc => hmore _ _ (h.kept c r hc)
  | unmark marked hless =>
      refine h.remark fun c r hc => ?_
      rcases hless _ _ (h.kept c r hc) with hm | hnone
      · exact hm
      · exact absurd hc (hnone c rfl)
  | look c r hidle hmarked =>
      refine h.move (fun r' hr => ?_) fun d r' _ hcleared => ?_
      · obtain rfl : r = r' := hr
        exact hmarked
      · exact absurd hcleared.2 (Set.notMem_empty _)
  | clear c r cleared o hlook hfree =>
      refine h.move (fun r' hr => ?_) fun d r' hne hcleared hd => ?_
      · exact h.kept c r' (by rw [hlook]; exact hr)
      · obtain ⟨rfl, ho⟩ := hcleared
        rcases Set.mem_insert_iff.mp ho with rfl | hold
        · -- the new one has no mark, so that it does not look either
          exact hfree (h.kept d r hd.concerns)
        · exact h.ordered d c r hne ⟨hd, by rw [hlook]; exact ⟨rfl, hold⟩⟩
  | take c r cleared hlook hall =>
      refine h.move (fun r' hr => ?_) fun d r' hne hr hd => ?_
      · exact h.kept c r' (by rw [hlook]; exact hr)
      · obtain rfl : r = r' := hr
        exact h.ordered d c r hne ⟨hd, by rw [hlook]; exact ⟨rfl, hall _ hne⟩⟩
  | drop c => exact h.move (fun r hr => hr.elim) fun d r _ hr => hr.elim

theorem Ordered.steps (h : Ordered owner s) (hsteps : Relation.ReflTransGen (Step owner) s s') :
    Ordered owner s' := by
  induction hsteps with
  | refl => exact h
  | tail _ hstep ih => exact ih.step hstep

end

end MarkAndLook
