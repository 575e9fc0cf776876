import Mathlib.Order.Lattice
import Mathlib.Order.Defs.LinearOrder
import Mathlib.Data.List.Basic

/-!
# A register that keeps a maximum

Writers put values into a register, which keeps the greatest; a reader takes what is there
and leaves the register at its bottom. What was put falls into groups, one after the other:
each taking yields the greatest of a group of its own, and what is there now is the greatest
of the rest (`Accounts`).
-/

namespace PeakRegister

variable {α : Type} [LinearOrder α] {bottom value : α} {puts takes : List α}

/-- The greatest of some values and the bottom. -/
def peak (bottom : α) (xs : List α) : α := xs.foldl max bottom

@[simp] theorem peak_nil : peak bottom [] = bottom := rfl

theorem peak_concat (xs : List α) (x : α) : peak bottom (xs ++ [x]) = max (peak bottom xs) x := by
  simp [peak]

/-- The register accounts for everything that was put. -/
def Accounts (bottom value : α) (puts takes : List α) : Prop :=
  ∃ (groups : List (List α)) (rest : List α), puts = groups.flatten ++ rest ∧ takes = groups.map (peak bottom) ∧
    value = peak bottom rest

theorem Accounts.start (bottom : α) : Accounts bottom bottom [] [] := ⟨[], [], rfl, rfl, rfl⟩

theorem Accounts.put (h : Accounts bottom value puts takes) (x : α) :
    Accounts bottom (max value x) (puts ++ [x]) takes := by
  obtain ⟨groups, rest, hputs, htakes, hvalue⟩ := h
  exact ⟨groups, rest ++ [x], by rw [hputs, List.append_assoc], htakes, by
    rw [hvalue, peak_concat]⟩

theorem Accounts.take (h : Accounts bottom value puts takes) :
    Accounts bottom bottom puts (takes ++ [value]) := by
  obtain ⟨groups, rest, hputs, htakes, hvalue⟩ := h
  refine ⟨groups ++ [rest], [], ?_, ?_, peak_nil.symm⟩
  · simp [hputs]
  · simp [htakes, hvalue]

end PeakRegister
