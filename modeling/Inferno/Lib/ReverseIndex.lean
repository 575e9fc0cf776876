import Mathlib.Data.List.Induction
import Mathlib.Logic.Function.Basic
import Mathlib.Tactic.Common

/-!
# Reverse indices of lists

Owners hold lists of keys, with gaps; a reverse index points from a key to an
owner that lists it and to a position at which it does. Lists may overlap: an
owner that comes later takes the entries of its keys over (`insertAll`), and
`eraseAll` clears them by key alone.

`Exact` says that the index is that of the lists. Entering a list keeps it
(`Exact.insertAll`); clearing one does if and only if no other owner lists one
of its keys (`Exact.eraseAll_iff`), and dropping an owner without clearing does
if and only if no entry points to it (`Exact.drop_iff`).
-/

namespace ReverseIndex

variable {K O V : Type} [DecidableEq K] [DecidableEq O]

/-- The entry of the key at a position, if there is a key. -/
def enter (mk : Nat → V) (m : K → Option V) : Option K × Nat → K → Option V
  | (some k, p) => Function.update m k (some (mk p))
  | (none, _) => m

/-- Every key of the list points to its position; the last one counts. -/
def insertAll (mk : Nat → V) (m : K → Option V) (l : List (Option K)) : K → Option V :=
  l.zipIdx.foldl (enter mk) m

def clear (m : K → Option V) : Option K → K → Option V
  | some k => Function.update m k none
  | none => m

def eraseAll (m : K → Option V) (l : List (Option K)) : K → Option V := l.foldl clear m

theorem insertAll_append (mk : Nat → V) (m : K → Option V) (l : List (Option K)) (o : Option K) :
    insertAll mk m (l ++ [o]) = enter mk (insertAll mk m l) (o, l.length) := by
  rw [insertAll, List.zipIdx_append, List.foldl_append, Nat.zero_add]
  rfl

theorem insertAll_of_mem (mk : Nat → V) (m : K → Option V) {l : List (Option K)} {k : K}
    (h : some k ∈ l) : ∃ p, l[p]? = some (some k) ∧ insertAll mk m l k = some (mk p) := by
  induction l using List.reverseRecOn with
  | nil => cases h
  | append_singleton l o ih =>
      rw [insertAll_append]
      by_cases ho : o = some k
      · subst ho
        refine ⟨l.length, List.getElem?_concat_length, ?_⟩
        rw [enter, Function.update_self]
      · have hmem : some k ∈ l := by
          rcases List.mem_append.mp h with hl | hl
          · exact hl
          · exact absurd (List.mem_singleton.mp hl).symm ho
        obtain ⟨p, hp, hrun⟩ := ih hmem
        refine ⟨p, ?_, ?_⟩
        · rw [List.getElem?_append_left (List.getElem?_eq_some_iff.mp hp).1, hp]
        · cases o with
          | none => exact hrun
          | some k' =>
              rw [enter, Function.update_of_ne, hrun]
              exact fun heq => ho (heq ▸ rfl)

theorem insertAll_of_not_mem (mk : Nat → V) (m : K → Option V) {l : List (Option K)} {k : K}
    (h : some k ∉ l) : insertAll mk m l k = m k := by
  induction l using List.reverseRecOn with
  | nil => rfl
  | append_singleton l o ih =>
      rw [List.mem_append, List.mem_singleton, not_or] at h
      rw [insertAll_append]
      cases o with
      | none => exact ih h.1
      | some k' =>
          rw [enter, Function.update_of_ne, ih h.1]
          exact fun heq => h.2 (heq ▸ rfl)

theorem eraseAll_apply (m : K → Option V) (l : List (Option K)) (k : K) :
    eraseAll m l k = if some k ∈ l then none else m k := by
  induction l generalizing m with
  | nil => rfl
  | cons o l ih =>
      rw [eraseAll, List.foldl_cons]
      refine (ih (clear m o)).trans ?_
      by_cases hl : some k ∈ l
      · rw [if_pos hl, if_pos (List.mem_cons_of_mem o hl)]
      rw [if_neg hl]
      by_cases ho : some k = o
      · subst ho
        rw [if_pos List.mem_cons_self, clear, Function.update_self]
      · rw [if_neg (fun hmem => (List.mem_cons.mp hmem).elim ho hl)]
        cases o with
        | none => rfl
        | some k' => exact Function.update_of_ne (fun heq => ho (congrArg some heq)) _ _

/-- The index of the lists: a key has an entry if and only if some owner lists
it, and the entry names an owner that lists it there. -/
structure Exact (owner : V → O) (position : V → Nat) (lists : O → Option (List (Option K)))
    (m : K → Option V) : Prop where
  listed : ∀ k, (m k).isSome ↔ ∃ o l, lists o = some l ∧ some k ∈ l
  points : ∀ k v, m k = some v → ∃ l, lists (owner v) = some l ∧ l[position v]? = some (some k)

variable {owner : V → O} {position : V → Nat} {lists : O → Option (List (Option K))}
  {m : K → Option V} {o : O} {l : List (Option K)}

/-- An owner's list is entered, which is its only one. -/
theorem Exact.insertAll (h : Exact owner position lists m)
    (hold : lists o = none ∨ lists o = some l) {mk : Nat → V}
    (hmk : ∀ p, owner (mk p) = o ∧ position (mk p) = p) :
    Exact owner position (Function.update lists o (some l)) (insertAll mk m l) := by
  have hkeep : ∀ o' l', lists o' = some l' → Function.update lists o (some l) o' = some l' := by
    intro o' l' hl'
    by_cases hne : o' = o
    · rw [hne, Function.update_self]
      rw [hne] at hl'
      rcases hold with hnone | hsome
      · rw [hnone] at hl'
        cases hl'
      · exact hsome.symm.trans hl'
    · rw [Function.update_of_ne hne, hl']
  refine ⟨fun k => ⟨fun hk => ?_, ?_⟩, fun k v hv => ?_⟩
  · by_cases hmem : some k ∈ l
    · exact ⟨o, l, Function.update_self o _ _, hmem⟩
    · rw [insertAll_of_not_mem mk m hmem] at hk
      obtain ⟨o', l', hl', hmem'⟩ := (h.listed k).mp hk
      exact ⟨o', l', hkeep o' l' hl', hmem'⟩
  · rintro ⟨o', l', hl', hmem'⟩
    by_cases hmem : some k ∈ l
    · obtain ⟨p, _, hp⟩ := insertAll_of_mem mk m hmem
      rw [hp]
      rfl
    · rw [insertAll_of_not_mem mk m hmem, h.listed k]
      by_cases hne : o' = o
      · rw [hne, Function.update_self] at hl'
        cases hl'
        exact absurd hmem' hmem
      · rw [Function.update_of_ne hne] at hl'
        exact ⟨o', l', hl', hmem'⟩
  · by_cases hmem : some k ∈ l
    · obtain ⟨p, hat, hp⟩ := insertAll_of_mem mk m hmem
      rw [hp] at hv
      cases hv
      rw [(hmk p).1, (hmk p).2]
      exact ⟨l, Function.update_self o _ _, hat⟩
    · rw [insertAll_of_not_mem mk m hmem] at hv
      obtain ⟨l', hl', hat⟩ := h.points k v hv
      exact ⟨l', hkeep _ l' hl', hat⟩

/-- Clearing by key: exact if and only if no other owner lists one of the keys. -/
theorem Exact.eraseAll_iff (h : Exact owner position lists m)
    (hold : lists o = none ∨ lists o = some l) :
    Exact owner position (Function.update lists o none) (eraseAll m l) ↔
      ∀ o' l', o' ≠ o → lists o' = some l' → ∀ k, some k ∈ l → some k ∉ l' := by
  constructor
  · intro h' o' l' hne hl' k hk hk'
    have hsome := (h'.listed k).mpr ⟨o', l', by rw [Function.update_of_ne hne, hl'], hk'⟩
    rw [eraseAll_apply, if_pos hk] at hsome
    cases hsome
  · intro hdisjoint
    refine ⟨fun k => ?_, fun k v hv => ?_⟩
    · rw [eraseAll_apply]
      by_cases hk : some k ∈ l
      · rw [if_pos hk]
        constructor
        · intro hf
          cases hf
        rintro ⟨o', l', hl', hmem'⟩
        by_cases hne : o' = o
        · rw [hne, Function.update_self] at hl'
          cases hl'
        · rw [Function.update_of_ne hne] at hl'
          exact absurd hmem' (hdisjoint o' l' hne hl' k hk)
      · rw [if_neg hk, h.listed k]
        constructor
        · rintro ⟨o', l', hl', hmem'⟩
          refine ⟨o', l', ?_, hmem'⟩
          rw [Function.update_of_ne, hl']
          rintro rfl
          rcases hold with hnone | hsome
          · rw [hnone] at hl'
            cases hl'
          · rw [hsome] at hl'
            cases hl'
            exact hk hmem'
        · rintro ⟨o', l', hl', hmem'⟩
          by_cases hne : o' = o
          · rw [hne, Function.update_self] at hl'
            cases hl'
          · rw [Function.update_of_ne hne] at hl'
            exact ⟨o', l', hl', hmem'⟩
    · rw [eraseAll_apply] at hv
      split at hv
      · cases hv
      next hk =>
      obtain ⟨l', hl', hat⟩ := h.points k v hv
      refine ⟨l', ?_, hat⟩
      rw [Function.update_of_ne, hl']
      intro heq
      rw [heq] at hl'
      rcases hold with hnone | hsome
      · rw [hnone] at hl'
        cases hl'
      · rw [hsome] at hl'
        cases hl'
        exact hk (List.mem_of_getElem? hat)

omit [DecidableEq K] in
/-- Dropping an owner: exact if and only if no entry points to it. -/
theorem Exact.drop_iff (h : Exact owner position lists m) :
    Exact owner position (Function.update lists o none) m ↔ ∀ k v, m k = some v → owner v ≠ o := by
  constructor
  · rintro h' k v hv rfl
    obtain ⟨l', hl', _⟩ := h'.points k v hv
    rw [Function.update_self] at hl'
    cases hl'
  · intro hnot
    have hpoints : ∀ k v, m k = some v → ∃ l', Function.update lists o none (owner v) = some l' ∧
        l'[position v]? = some (some k) := by
      intro k v hv
      obtain ⟨l', hl', hat⟩ := h.points k v hv
      exact ⟨l', by rw [Function.update_of_ne (hnot k v hv), hl'], hat⟩
    refine ⟨fun k => ⟨fun hk => ?_, ?_⟩, hpoints⟩
    · obtain ⟨v, hv⟩ := Option.isSome_iff_exists.mp hk
      obtain ⟨l', hl', hat⟩ := hpoints k v hv
      exact ⟨_, l', hl', List.mem_of_getElem? hat⟩
    · rintro ⟨o', l', hl', hmem'⟩
      by_cases hne : o' = o
      · rw [hne, Function.update_self] at hl'
        cases hl'
      · rw [Function.update_of_ne hne] at hl'
        exact (h.listed k).mpr ⟨o', l', hl', hmem'⟩

end ReverseIndex
