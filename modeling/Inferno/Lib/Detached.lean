import Mathlib.Data.List.Basic

/-!
# Detached tasks

Tasks are handed over in one order and run in any. What a task does to one
thing it touches is told by `touches`; tasks that do not touch it are passed
over.

Of a register a task overwrites, only the task that runs last matters:
`lastValue` is the value the register has at the end when the tasks run in the
order of the list, and a task that is not the latest, or is the only one left,
does not change it (`lastValue_run`). Of a thing that tasks put in a place and
take away again every one matters: `Leads` says that in order they never put
it in two places, and where it is at the end.
-/

namespace Detached

variable {T E P : Type} {touches : T → Option E}

/-- The effects to come, in order. -/
def effects (touches : T → Option E) (l : List T) : List E := l.filterMap touches

theorem effects_append (l l' : List T) :
    effects touches (l ++ l') = effects touches l ++ effects touches l' := List.filterMap_append

theorem effects_eq_nil {l : List T} (h : ∀ t ∈ l, touches t = none) : effects touches l = [] :=
  List.filterMap_eq_nil_iff.mpr h

/-- The effects before and behind the `i`-th task. -/
theorem effects_at {l : List T} {i : Nat} {t : T} (h : l[i]? = some t) :
    effects touches l = effects touches (l.take i) ++ (touches t).toList ++
      effects touches (l.drop (i + 1)) := by
  obtain ⟨hlt, hget⟩ := List.getElem?_eq_some_iff.mp h
  have hsplit : l = l.take i ++ t :: l.drop (i + 1) := by
    rw [← hget, List.getElem_cons_drop, List.take_append_drop]
  have hone : effects touches (t :: l.drop (i + 1)) =
      (touches t).toList ++ effects touches (l.drop (i + 1)) := by
    rw [effects, List.filterMap_cons]
    cases touches t <;> rfl
  calc effects touches l = effects touches (l.take i ++ t :: l.drop (i + 1)) := by rw [← hsplit]
    _ = _ := by rw [effects_append, hone, List.append_assoc]

theorem effects_eraseIdx (l : List T) (i : Nat) :
    effects touches (l.eraseIdx i) =
      effects touches (l.take i) ++ effects touches (l.drop (i + 1)) := by
  rw [List.eraseIdx_eq_take_drop_succ, effects_append]

/-! ## A register -/

/-- The value when all tasks have run in order. -/
def lastValue (touches : T → Option E) (v : E) (l : List T) : E :=
  (effects touches l).getLast?.getD v

/-- The `i`-th task is not the latest, or is the only one left. -/
def KeepsLast (touches : T → Option E) (l : List T) (i : Nat) : Prop :=
  effects touches (l.take i) = [] ∨ effects touches (l.drop (i + 1)) ≠ []

instance (touches : T → Option E) (l : List T) (i : Nat) [DecidableEq E] :
    Decidable (KeepsLast touches l i) :=
  inferInstanceAs (Decidable (_ ∨ _))

theorem lastValue_nil (v : E) : lastValue touches v [] = v := rfl

theorem lastValue_append (v : E) (l l' : List T) :
    lastValue touches v (l ++ l') = lastValue touches (lastValue touches v l) l' := by
  rw [lastValue, lastValue, lastValue, effects_append, List.getLast?_append]
  cases (effects touches l').getLast? <;> rfl

theorem lastValue_skip {v : E} {l : List T} (h : effects touches l = []) :
    lastValue touches v l = v := by
  rw [lastValue, h]
  rfl

/-- A task that touches the register runs. -/
theorem lastValue_run {v e : E} {l : List T} {i : Nat} {t : T} (hi : l[i]? = some t)
    (ht : touches t = some e) (hkeeps : KeepsLast touches l i) :
    lastValue touches e (l.eraseIdx i) = lastValue touches v l := by
  rw [lastValue, lastValue, effects_eraseIdx, effects_at hi, ht, Option.toList_some]
  by_cases hrest : effects touches (l.drop (i + 1)) = []
  · have hfirst := hkeeps.resolve_right (not_not.mpr hrest)
    rw [hrest, hfirst]
    rfl
  · obtain ⟨last, hlast⟩ : ∃ last, (effects touches (l.drop (i + 1))).getLast? = some last :=
      ⟨_, List.getLast?_eq_some_getLast hrest⟩
    rw [List.getLast?_append, List.getLast?_append, hlast]
    rfl

/-- A task that does not touch it runs. -/
theorem lastValue_other {v : E} {l : List T} {i : Nat} {t : T} (hi : l[i]? = some t)
    (ht : touches t = none) :
    lastValue touches v (l.eraseIdx i) = lastValue touches v l := by
  rw [lastValue, lastValue, effects_eraseIdx, effects_at hi, ht, Option.toList_none,
    List.append_nil]

/-! ## A thing in a place -/

/-- What a task does to the thing. -/
inductive Move (P : Type) where
  | put (p : P)
  | take (p : P)
deriving DecidableEq

/-- In order, from `cur` to `fin`: the thing is put where there is none of it,
and taken from where it is, if it still is. -/
def Leads : Option P → List (Move P) → Option P → Prop
  | cur, [], fin => cur = fin
  | cur, .put p :: l, fin => cur = none ∧ Leads (some p) l fin
  | cur, .take p :: l, fin => (cur = none ∨ cur = some p) ∧ Leads none l fin

/-- No earlier task for the thing is left. -/
def InTurn (touches : T → Option E) (l : List T) (i : Nat) : Prop :=
  effects touches (l.take i) = []

instance (touches : T → Option E) (l : List T) (i : Nat) [DecidableEq E] :
    Decidable (InTurn touches l i) :=
  inferInstanceAs (Decidable (_ = _))

theorem effects_inTurn {l : List T} {i : Nat} {t : T} {e : E} (hi : l[i]? = some t)
    (ht : touches t = some e) (hturn : InTurn touches l i) :
    effects touches l = e :: effects touches (l.eraseIdx i) := by
  rw [effects_eraseIdx, effects_at hi, ht, hturn]
  rfl

theorem effects_other {l : List T} {i : Nat} {t : T} (hi : l[i]? = some t)
    (ht : touches t = none) : effects touches (l.eraseIdx i) = effects touches l := by
  rw [effects_eraseIdx, effects_at hi, ht, Option.toList_none, List.append_nil]

theorem Leads.append {cur mid fin : Option P} {l l' : List (Move P)} (h : Leads cur l mid)
    (h' : Leads mid l' fin) : Leads cur (l ++ l') fin := by
  induction l generalizing cur with
  | nil =>
      obtain rfl : cur = mid := h
      exact h'
  | cons m l ih =>
      cases m with
      | put p => exact ⟨h.1, ih h.2⟩
      | take p => exact ⟨h.1, ih h.2⟩

/-- The thing is lost where it is not to stay: it will be taken from there, and
taking it from nowhere is no harm. -/
theorem Leads.lost {p : P} {l : List (Move P)} {fin : Option P} (h : Leads (some p) l fin)
    (hfin : fin ≠ some p) : Leads none l fin := by
  cases l with
  | nil => exact absurd h.symm hfin
  | cons m l =>
      cases m with
      | put q => cases h.1
      | take q => exact ⟨.inl rfl, h.2⟩

end Detached
