import Mathlib.Tactic.Common

/-!
# Extrema of a list by a comparison

`minBy` and `maxBy` go through a list once and keep the best element so far;
among equal ones the first is the minimum and the last the maximum. The
comparison need not be an order. Where it agrees with the order of some key on
the elements of the list, the results have the least and the greatest key.
-/

namespace Extremum

variable {α : Type}

def minBy (cmp : α → α → Ordering) : List α → Option α
  | [] => none
  | x :: xs => some (xs.foldl (fun best y => if cmp best y = .gt then y else best) x)

def maxBy (cmp : α → α → Ordering) : List α → Option α
  | [] => none
  | x :: xs => some (xs.foldl (fun best y => if cmp best y = .gt then best else y) x)

theorem minBy_isSome {cmp : α → α → Ordering} {l : List α} : (minBy cmp l).isSome ↔ l ≠ [] := by
  cases l <;> simp [minBy]

variable {cmp : α → α → Ordering} {key : α → Int} {l : List α} {m : α}

/-- A choice between the best so far and the next element that keeps the one
`better` prefers ends with one that is preferred to all. -/
theorem foldl_best {pick : α → α → α} (better : α → α → Prop)
    (htrans : ∀ a b c, better a b → better b c → better a c) (hrefl : ∀ a, better a a)
    (xs : List α) (x : α)
    (hpick : ∀ a ∈ x :: xs, ∀ b ∈ x :: xs, (pick a b = a ∧ better a b) ∨ (pick a b = b ∧ better b a)) :
    xs.foldl pick x ∈ x :: xs ∧ ∀ y ∈ x :: xs, better (xs.foldl pick x) y := by
  induction xs generalizing x with
  | nil => exact ⟨List.mem_cons_self, fun y hy => List.mem_singleton.mp hy ▸ hrefl y⟩
  | cons z zs ih =>
      rw [List.foldl_cons]
      have hz : z ∈ x :: z :: zs := List.mem_cons_of_mem _ List.mem_cons_self
      rcases hpick x List.mem_cons_self z hz with ⟨heq, hbetter⟩ | ⟨heq, hbetter⟩
      · rw [heq]
        obtain ⟨hmem, hall⟩ := ih x fun a ha b hb => hpick a (by grind) b (by grind)
        refine ⟨by grind, fun y hy => ?_⟩
        rcases List.mem_cons.mp hy with rfl | hy
        · exact hall _ List.mem_cons_self
        · rcases List.mem_cons.mp hy with rfl | hy
          · exact htrans _ _ _ (hall _ List.mem_cons_self) hbetter
          · exact hall y (List.mem_cons_of_mem _ hy)
      · rw [heq]
        obtain ⟨hmem, hall⟩ := ih z fun a ha b hb =>
          hpick a (List.mem_cons_of_mem _ ha) b (List.mem_cons_of_mem _ hb)
        refine ⟨List.mem_cons_of_mem _ hmem, fun y hy => ?_⟩
        rcases List.mem_cons.mp hy with rfl | hy
        · exact htrans _ _ _ (hall _ List.mem_cons_self) hbetter
        · exact hall y hy

/-- Whatever the comparison is, the minimum is an element. -/
theorem mem_of_minBy (h : minBy cmp l = some m) : m ∈ l := by
  cases l with
  | nil => cases h
  | cons x xs =>
      obtain rfl := Option.some.inj h
      refine (foldl_best (fun _ _ => True) (fun _ _ _ _ _ => trivial) (fun _ => trivial) xs x
        fun a _ b _ => ?_).1
      by_cases hgt : cmp a b = .gt
      · exact .inr ⟨if_pos hgt, trivial⟩
      · exact .inl ⟨if_neg hgt, trivial⟩

theorem minBy_spec (hcmp : ∀ a ∈ l, ∀ b ∈ l, cmp a b = compare (key a) (key b))
    (h : minBy cmp l = some m) : m ∈ l ∧ ∀ x ∈ l, key m ≤ key x := by
  cases l with
  | nil => cases h
  | cons x xs =>
      obtain rfl := Option.some.inj h
      refine foldl_best (fun a b => key a ≤ key b) (fun a b c => Int.le_trans)
        (fun a => Int.le_refl _) xs x fun a ha b hb => ?_
      rw [hcmp a ha b hb]
      by_cases hab : key b < key a
      · rw [if_pos (Int.compare_eq_gt.mpr hab)]
        exact .inr ⟨rfl, Int.le_of_lt hab⟩
      · rw [if_neg fun hgt => hab (Int.compare_eq_gt.mp hgt)]
        exact .inl ⟨rfl, Int.not_lt.mp hab⟩

theorem maxBy_spec (hcmp : ∀ a ∈ l, ∀ b ∈ l, cmp a b = compare (key a) (key b))
    (h : maxBy cmp l = some m) : m ∈ l ∧ ∀ x ∈ l, key x ≤ key m := by
  cases l with
  | nil => cases h
  | cons x xs =>
      obtain rfl := Option.some.inj h
      refine foldl_best (fun a b => key b ≤ key a)
        (fun a b c hab hbc => Int.le_trans hbc hab) (fun a => Int.le_refl _) xs x
        fun a ha b hb => ?_
      rw [hcmp a ha b hb]
      by_cases hab : key b < key a
      · rw [if_pos (Int.compare_eq_gt.mpr hab)]
        exact .inl ⟨rfl, Int.le_of_lt hab⟩
      · rw [if_neg fun hgt => hab (Int.compare_eq_gt.mp hgt)]
        exact .inr ⟨rfl, Int.not_lt.mp hab⟩

end Extremum
