import Mathlib.Data.List.GetD
import Mathlib.Tactic.Tauto

/-!
# Sets of numbers as masks

A list of words as the set of the numbers whose bits are set, the lowest bit of
a word first. A mask that numbers are put into grows as far as it has to
(`length_foldl_mark_le_iff`), has these numbers and no others (`has_foldl_mark`),
and is the same in whatever order they come and however often
(`foldl_mark_congr`).
-/

namespace BitMask

variable {w : Nat}

def has (mask : List (BitVec w)) (i : Nat) : Bool := (mask.getD (i / w) 0).getLsbD (i % w)

/-- Zeros behind the mask, until there is a word for the number. -/
def grow (mask : List (BitVec w)) (i : Nat) : List (BitVec w) :=
  mask ++ List.replicate (i / w + 1 - mask.length) 0

/-- Puts a number into the mask. -/
def mark (mask : List (BitVec w)) (i : Nat) : List (BitVec w) :=
  (grow mask i).modify (i / w) (· ||| (1 : BitVec w) <<< (i % w))

variable {mask mask' : List (BitVec w)} {i j n : Nat} {l l' : List Nat}

@[simp] theorem length_grow : (grow mask i).length = max mask.length (i / w + 1) := by
  simp only [grow, List.length_append, List.length_replicate]
  omega

@[simp] theorem length_mark : (mark mask i).length = max mask.length (i / w + 1) := by
  simp [mark]

@[simp] theorem has_grow : has (grow mask i) j = has mask j := by
  unfold has grow
  congr 1
  by_cases hj : j / w < mask.length
  · rw [List.getD_append _ _ _ _ hj]
  · rw [List.getD_append_right _ _ _ _ (Nat.not_lt.mp hj), List.getD_eq_default mask _
      (Nat.not_lt.mp hj), List.getD_eq_getElem?_getD, List.getElem?_replicate]
    split <;> rfl

@[simp] theorem has_nil : has ([] : List (BitVec w)) i = false := by
  simp [has]

/-- A word is not changed by what is set in another. -/
theorem has_mark_of_ne (h : j / w ≠ i / w) : has (mark mask i) j = has mask j := by
  rw [← @has_grow w mask i j]
  unfold has mark
  simp [h.symm]

/-- In its own word, a number sets one bit. -/
theorem has_mark_of_eq (hw : 0 < w) (h : j / w = i / w) :
    has (mark mask i) j = (has mask j || decide (j % w = i % w)) := by
  have hlt : j / w < (grow mask i).length := by
    rw [length_grow]
    omega
  have hj := Nat.mod_lt j hw
  rw [← @has_grow w mask i j]
  unfold has mark
  simp only [List.getD_eq_getElem?_getD, List.getElem?_modify, h, if_true]
  rw [h] at hlt
  rw [List.getElem?_eq_getElem hlt, Option.map_eq_map, Option.map_some, Option.getD_some,
    Option.getD_some]
  simp only [BitVec.getLsbD_or, BitVec.getLsbD_shiftLeft]
  grind

/-- The mask has the number in addition. -/
theorem has_mark (hw : 0 < w) : has (mark mask i) j = (has mask j || decide (j = i)) := by
  have hsplit : j = i ↔ j / w = i / w ∧ j % w = i % w := by
    constructor
    · rintro rfl
      exact ⟨rfl, rfl⟩
    · rintro ⟨hdiv, hmod⟩
      rw [← Nat.div_add_mod j w, ← Nat.div_add_mod i w, hdiv, hmod]
  by_cases h : j / w = i / w
  · rw [has_mark_of_eq hw h]
    simp [hsplit, h]
  · rw [has_mark_of_ne h]
    simp [hsplit, h]

/-! ## Many numbers -/

theorem has_foldl_mark (hw : 0 < w) :
    has (l.foldl mark mask) j = true ↔ j ∈ l ∨ has mask j = true := by
  induction l generalizing mask with
  | nil => simp
  | cons i l ih =>
      rw [List.foldl_cons, ih, has_mark hw, List.mem_cons]
      simp only [Bool.or_eq_true, decide_eq_true_eq]
      tauto

/-- A mask is as long as its numbers need, if it was not longer before. -/
theorem length_foldl_mark_le_iff :
    (l.foldl mark mask).length ≤ n ↔ mask.length ≤ n ∧ ∀ i ∈ l, i / w + 1 ≤ n := by
  induction l generalizing mask with
  | nil => simp
  | cons i l ih =>
      rw [List.foldl_cons, ih, length_mark, List.forall_mem_cons, Nat.max_le, and_assoc]

/-- Masks of one length with the same numbers. -/
theorem ext (hw : 0 < w) (hlen : mask.length = mask'.length)
    (h : ∀ i, has mask i = has mask' i) : mask = mask' := by
  refine List.ext_getElem hlen fun k hk hk' => ?_
  apply BitVec.eq_of_getLsbD_eq
  intro b hb
  have hbit := h (w * k + b)
  rw [has, has, Nat.mul_add_div hw, Nat.mul_add_mod, Nat.div_eq_of_lt hb, Nat.mod_eq_of_lt hb,
    Nat.add_zero, List.getD_eq_getElem _ _ hk, List.getD_eq_getElem _ _ hk'] at hbit
  exact hbit

theorem foldl_mark_congr (hw : 0 < w) (h : ∀ i, i ∈ l ↔ i ∈ l') :
    l.foldl mark mask = l'.foldl mark mask := by
  have hle : ∀ n, (l.foldl mark mask).length ≤ n ↔ (l'.foldl mark mask).length ≤ n := by
    intro n
    simp only [length_foldl_mark_le_iff, h]
  have hlen : (l.foldl mark mask).length = (l'.foldl mark mask).length :=
    Nat.le_antisymm ((hle _).mpr (Nat.le_refl _)) ((hle _).mp (Nat.le_refl _))
  refine ext hw hlen fun i => ?_
  rw [Bool.eq_iff_iff, has_foldl_mark hw, has_foldl_mark hw, h]

end BitMask
