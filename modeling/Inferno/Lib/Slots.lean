import Mathlib.Data.List.Perm.Basic

/-!
# Tables of slots

A table whose slots are free or taken. How many slots are free changes with one
slot at a time (`free_set`), and so does how often a thing is in what the slots
hold (`count_held_set`).
-/

namespace Slots

variable {β β' γ : Type} {slots : List (Option β)} {i : Nat} {o : Option β}

/-- How many slots are free. -/
def free (slots : List (Option β)) : Nat := slots.countP Option.isNone

/-- What is in the slots. -/
def held (holds : β → List γ) (slots : List (Option β)) : List γ :=
  slots.flatMap fun o => o.toList.flatMap holds

@[simp] theorem free_replicate (n : Nat) : free (List.replicate n (none : Option β)) = n := by
  simp [free, List.countP_replicate]

theorem free_set (h : slots[i]? = some o) (o' : Option β) :
    free (slots.set i o') + (if o.isNone then 1 else 0) =
      free slots + if o'.isNone then 1 else 0 := by
  rcases List.getElem?_eq_some_iff.mp h with ⟨hi, rfl⟩
  have hpos : (if slots[i].isNone = true then 1 else 0) ≤ slots.countP Option.isNone := by
    split
    · next hnone => exact List.countP_pos_iff.mpr ⟨_, List.getElem_mem hi, hnone⟩
    · exact Nat.zero_le _
  rw [free, free, List.countP_set hi]
  omega

/-- What changes the content of slots takes none and frees none. -/
@[simp] theorem free_map (g : β → β') : free (slots.map (Option.map g)) = free slots := by
  rw [free, free, List.countP_map]
  congr 1
  funext o
  cases o <;> rfl

@[simp] theorem held_replicate (holds : β → List γ) (n : Nat) :
    held holds (List.replicate n none) = [] := by
  simp [held]

theorem held_map {holds : β → List γ} {holds' : β' → List γ} {g : β → β'}
    (h : ∀ x, holds' (g x) = holds x) :
    held holds' (slots.map (Option.map g)) = held holds slots := by
  rw [held, held, List.flatMap_map]
  congr 1
  funext o
  cases o <;> simp [h]

theorem count_held_set [DecidableEq γ] (holds : β → List γ) (h : slots[i]? = some o)
    (o' : Option β) (c : γ) :
    (held holds (slots.set i o')).count c + (o.toList.flatMap holds).count c =
      (held holds slots).count c + (o'.toList.flatMap holds).count c := by
  rcases List.getElem?_eq_some_iff.mp h with ⟨hi, rfl⟩
  have hset := (List.set_perm_cons_eraseIdx hi o').flatMap_right fun o => o.toList.flatMap holds
  have hold := (List.getElem_cons_eraseIdx_perm hi).flatMap_right fun o => o.toList.flatMap holds
  have hset' := hset.count_eq c
  have hold' := hold.count_eq c
  rw [List.flatMap_cons, List.count_append] at hset' hold'
  rw [held, held]
  omega

end Slots
