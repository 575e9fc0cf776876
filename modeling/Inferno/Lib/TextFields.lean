import Mathlib.Data.String.Basic
import Mathlib.Tactic.Common

/-!
# Fields of text

Numbers written in decimal and read back, and text split at its first
separator. Reading is strict: a sign may stand in front, everything behind it
is a digit, and the number is below a bound.
-/

namespace TextFields

/-! ## Numbers -/

def digitValue (base : Nat) (c : Char) : Option Nat :=
  let value :=
    if c.isDigit then c.toNat - '0'.toNat
    else if 'a' ≤ c ∧ c ≤ 'f' then c.toNat - 'a'.toNat + 10
    else if 'A' ≤ c ∧ c ≤ 'F' then c.toNat - 'A'.toNat + 10
    else base
  if value < base then some value else none

/-- The value of digits behind those that are worth `n`. -/
def digitsValue (base : Nat) (n : Nat) (digits : List Char) : Option Nat :=
  digits.foldlM (fun n c => (digitValue base c).map (base * n + ·)) n

def dropSign : List Char → List Char
  | '+' :: rest => rest
  | s => s

/-- A number below `bound`, with a plus sign or without. -/
def fromStrRadix (base bound : Nat) (s : String) : Option Nat :=
  if dropSign s.toList = [] then none
  else (digitsValue base 0 (dropSign s.toList)).filter (· < bound)

theorem digitValue_isDigit {c : Char} (h : c.isDigit) :
    digitValue 10 c = some (c.toNat - '0'.toNat) := by
  have hlt : c.toNat - '0'.toNat < 10 := by
    have hrange : c.toNat ≤ '9'.toNat := by
      simp only [Char.isDigit, Bool.and_eq_true, decide_eq_true_eq] at h
      exact h.2
    have h9 : '9'.toNat = 57 := rfl
    have h0 : '0'.toNat = 48 := rfl
    omega
  simp only [digitValue, h, if_true, hlt]

theorem digitsValue_ofDigitChars {digits : List Char} (h : ∀ c ∈ digits, c.isDigit) (n : Nat) :
    digitsValue 10 n digits = some (Nat.ofDigitChars 10 digits n) := by
  induction digits generalizing n with
  | nil => simp [digitsValue, Nat.ofDigitChars]
  | cons c digits ih =>
      have hrest := ih (fun c' hc' => h c' (List.mem_cons_of_mem _ hc'))
        (10 * n + (c.toNat - '0'.toNat))
      rw [Nat.ofDigitChars_cons, ← hrest, digitsValue, List.foldlM_cons,
        digitValue_isDigit (h c List.mem_cons_self)]
      rfl

theorem isDigit_toDigits {n : Nat} {c : Char} (h : c ∈ Nat.toDigits 10 n) : c.isDigit :=
  Nat.isDigit_of_mem_toDigits (by decide) (by decide) h

theorem dropSign_toDigits (n : Nat) : dropSign (Nat.toDigits 10 n) = Nat.toDigits 10 n := by
  unfold dropSign
  split
  · next rest heq =>
      have hplus := @isDigit_toDigits n '+' (heq ▸ List.mem_cons_self)
      exact absurd hplus (by decide)
  · rfl

/-- What is written in decimal is read back. -/
theorem fromStrRadix_repr {n bound : Nat} (h : n < bound) :
    fromStrRadix 10 bound n.repr = some n := by
  rw [fromStrRadix, Nat.toList_repr, dropSign_toDigits, if_neg Nat.toDigits_ne_nil,
    digitsValue_ofDigitChars fun c => isDigit_toDigits, Nat.ofDigitChars_ten_toDigits]
  simp [h]

/-! ## Separators -/

def splitList (sep : Char) : List Char → Option (List Char × List Char)
  | [] => none
  | c :: s =>
      if c = sep then some ([], s)
      else (splitList sep s).map fun parts => (c :: parts.1, parts.2)

/-- The text before the first separator, and the text behind it. -/
def splitOnce (sep : Char) (s : String) : Option (String × String) :=
  (splitList sep s.toList).map fun parts => (String.ofList parts.1, String.ofList parts.2)

theorem splitList_append {sep : Char} {k : List Char} (h : sep ∉ k) (v : List Char) :
    splitList sep (k ++ sep :: v) = some (k, v) := by
  induction k with
  | nil => simp [splitList]
  | cons c k ih =>
      have hc : c ≠ sep := fun heq => h (heq ▸ List.mem_cons_self)
      rw [List.cons_append, splitList, if_neg hc, ih fun hk => h (List.mem_cons_of_mem _ hk)]
      rfl

theorem splitOnce_append {sep : Char} {k : String} (h : sep ∉ k.toList) (v : String) :
    splitOnce sep (k ++ sep.toString ++ v) = some (k, v) := by
  have hlist : (k ++ sep.toString ++ v).toList = k.toList ++ sep :: v.toList := by simp
  rw [splitOnce, hlist, splitList_append h]
  simp

/-- Digits hold no separator. -/
theorem not_mem_repr {sep : Char} (h : sep.isDigit = false) (n : Nat) : sep ∉ n.repr.toList := by
  intro hmem
  rw [Nat.toList_repr] at hmem
  rw [isDigit_toDigits hmem] at h
  cases h

end TextFields
