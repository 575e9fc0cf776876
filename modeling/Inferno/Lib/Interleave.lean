import Mathlib.Tactic.Linarith
import Mathlib.Tactic.Ring

/-!
# Interleaved lanes

`n` lanes of cells of `b` bytes each, interleaved: `cellPos n b i j` is where
the `j`-th cell of lane `i` begins. A byte belongs to one cell of one lane
only, and the first `m` cells of every lane fill exactly `n * b * m` bytes.
-/

namespace Interleave

/-- Where the `j`-th cell of lane `i` begins. -/
def cellPos (n b i j : Nat) : Nat := i * b + j * (n * b)

theorem cellPos_eq (n b i j : Nat) : cellPos n b i j = (j * n + i) * b := by
  rw [cellPos]
  ring

theorem cellPos_zero (n b i : Nat) : cellPos n b i 0 = i * b := by
  rw [cellPos, Nat.zero_mul, Nat.add_zero]

theorem cellPos_succ (n b i j : Nat) : cellPos n b i (j + 1) = cellPos n b i j + n * b := by
  rw [cellPos, cellPos]
  ring

/-- Byte `k` of a cell tells which cell it is in. -/
theorem cell_inj {n b i i' j j' k k' : Nat} (hi : i < n) (hi' : i' < n) (hk : k < b)
    (hk' : k' < b) (h : cellPos n b i j + k = cellPos n b i' j' + k') :
    i = i' ∧ j = j' ∧ k = k' := by
  rw [cellPos_eq, cellPos_eq, Nat.mul_comm _ b, Nat.mul_comm _ b] at h
  have hb : 0 < b := by omega
  have hcell : j * n + i = j' * n + i' := by
    have hdiv := congrArg (· / b) h
    simpa only [Nat.mul_add_div hb, Nat.div_eq_of_lt hk, Nat.div_eq_of_lt hk', Nat.add_zero]
      using hdiv
  have hrow : j = j' := by
    have hdiv := congrArg (· / n) hcell
    rw [Nat.mul_comm j n, Nat.mul_comm j' n] at hdiv
    simpa only [Nat.mul_add_div (show 0 < n by omega), Nat.div_eq_of_lt hi, Nat.div_eq_of_lt hi',
      Nat.add_zero] using hdiv
  subst hrow
  obtain rfl : i = i' := by omega
  exact ⟨rfl, rfl, by omega⟩

/-- A cell lies within the first `m` cells of all lanes exactly if it is one
of its lane's first `m`. -/
theorem cell_fits_iff {n b i j m : Nat} (hi : i < n) (hb : 0 < b) :
    cellPos n b i j + b ≤ n * b * m ↔ j < m := by
  have hnb : 0 < n * b := Nat.mul_pos (by omega) hb
  have hlane : i * b + b ≤ n * b := by
    rw [← Nat.succ_mul]
    exact Nat.mul_le_mul_right b hi
  constructor
  · intro h
    by_contra hge
    have hle : n * b * m ≤ j * (n * b) := by
      rw [Nat.mul_comm j]
      exact Nat.mul_le_mul_left _ (by omega)
    rw [cellPos] at h
    omega
  · intro h
    have hle : (j + 1) * (n * b) ≤ n * b * m := by
      rw [Nat.mul_comm (n * b)]
      exact Nat.mul_le_mul_right _ h
    rw [Nat.succ_mul] at hle
    rw [cellPos]
    omega

/-- A list of blocks of `n` items each. -/
theorem getElem?_flatMap {α β : Type} {l : List α} {g : α → List β} {i n k : Nat}
    (hn : ∀ x ∈ l, (g x).length = n) (hi : i < l.length) (hk : k < n) :
    (l.flatMap g)[i * n + k]? = (g l[i])[k]? := by
  induction l generalizing i with
  | nil => cases hi
  | cons x l ih =>
      have hx := hn x List.mem_cons_self
      rw [List.flatMap_cons]
      cases i with
      | zero => rw [Nat.zero_mul, Nat.zero_add, List.getElem?_append_left (by omega)]; rfl
      | succ i =>
          rw [Nat.succ_mul, List.getElem?_append_right (by omega),
            show i * n + n + k - (g x).length = i * n + k by omega,
            ih (fun y hy => hn y (List.mem_cons_of_mem _ hy)) (by simpa using hi)]
          rfl

theorem length_flatMap {α β : Type} {l : List α} {g : α → List β} {n : Nat}
    (hn : ∀ x ∈ l, (g x).length = n) : (l.flatMap g).length = l.length * n := by
  induction l with
  | nil => simp
  | cons x l ih =>
      rw [List.flatMap_cons, List.length_append, hn x List.mem_cons_self,
        ih fun y hy => hn y (List.mem_cons_of_mem _ hy), List.length_cons, Nat.succ_mul,
        Nat.add_comm]

end Interleave
