import Mathlib.Data.BitVec
import Mathlib.Tactic.Linarith
import Mathlib.Tactic.Ring

/-!
# Serial numbers: wrapped counters and the integers they stand for

A counter of `w` bits that wraps is compared by its signed difference. As
long as the two counters stand for integers less than `2^(w-1)` apart, the
signed difference of the wrapped values is the difference of the integers;
`place` goes the other way and puts a wrapped value back on the integer line,
at the representative nearest to a known base.

The second half is about a ring of `N` slots addressed by such counters:
two integers of one window of length `N` that share a slot are equal.
-/

namespace Serial

variable {w : Nat}

/-! ## Signed differences -/

/-- The signed difference of two wrapped counters. -/
def sdiff (a b : BitVec w) : Int := (a - b).toInt

theorem ofInt_sub (a b : Int) :
    BitVec.ofInt w a - BitVec.ofInt w b = BitVec.ofInt w (a - b) := by
  rw [BitVec.sub_eq_add_neg, ← BitVec.ofInt_neg, ← BitVec.ofInt_add, Int.sub_eq_add_neg]

theorem ofInt_add_ofNat (a : Int) (n : Nat) :
    BitVec.ofInt w a + BitVec.ofNat w n = BitVec.ofInt w (a + n) := by
  rw [BitVec.ofInt_add, BitVec.ofInt_natCast]

/-- `d` fits a signed `w`-bit integer. -/
def Fits (w : Nat) (d : Int) : Prop := -2 ^ (w - 1) ≤ d ∧ d < 2 ^ (w - 1)

/-- The signed difference is exact as long as the true one fits. -/
theorem sdiff_ofInt {a b : Int} (hw : 0 < w) (h : Fits w (a - b)) :
    sdiff (BitVec.ofInt w a) (BitVec.ofInt w b) = a - b := by
  rw [sdiff, ofInt_sub]
  exact BitVec.toInt_ofInt_eq_self hw h.1 h.2

theorem fits_sdiff (a b : BitVec w) : Fits w (sdiff a b) :=
  ⟨BitVec.le_toInt (a - b), BitVec.toInt_lt⟩

@[simp] theorem sdiff_self (a : BitVec w) : sdiff a a = 0 := by
  simp [sdiff]

@[simp] theorem ofInt_sdiff (a b : BitVec w) : BitVec.ofInt w (sdiff a b) = a - b :=
  BitVec.ofInt_toInt

/-- A difference, by way of the signed differences from a third counter. -/
theorem sub_eq_ofInt (a b c : BitVec w) : a - b = BitVec.ofInt w (sdiff a c - sdiff b c) := by
  rw [← ofInt_sub, ofInt_sdiff, ofInt_sdiff]
  exact (sub_sub_sub_cancel_right a b c).symm

theorem sdiff_eq_sub {a b c : BitVec w} (hw : 0 < w) (h : Fits w (sdiff a c - sdiff b c)) :
    sdiff a b = sdiff a c - sdiff b c := by
  rw [sdiff, sub_eq_ofInt a b c]
  exact BitVec.toInt_ofInt_eq_self hw h.1 h.2

/-- A difference read unsigned: a negative one is huge. -/
theorem toNat_sub (a b : BitVec w) :
    ((a - b).toNat : Int) = if 0 ≤ sdiff a b then sdiff a b else 2 ^ w + sdiff a b := by
  have hlt := (a - b).isLt
  have hpow : ((2 ^ w : Nat) : Int) = 2 ^ w := by push_cast; rfl
  rw [sdiff, BitVec.toInt_eq_toNat_cond]
  split <;> split <;> omega

theorem add_toNat_sub (a b : BitVec w) : a + BitVec.ofNat w (b - a).toNat = b := by
  rw [BitVec.ofNat_toNat, BitVec.setWidth_eq]
  exact add_sub_cancel a b

/-! ## Placing a counter on the integer line -/

/-- The integer nearest to `base` that the wrapped value `x` stands for. -/
def place (base : Int) (x : BitVec w) : Int := base + sdiff x (BitVec.ofInt w base)

@[simp] theorem ofInt_place (base : Int) (x : BitVec w) :
    BitVec.ofInt w (place base x) = x := by
  rw [place, BitVec.ofInt_add, sdiff, BitVec.ofInt_toInt, BitVec.add_comm, BitVec.sub_add_cancel]

theorem place_ofInt {base a : Int} (hw : 0 < w) (h : Fits w (a - base)) :
    place base (BitVec.ofInt w a) = a := by
  rw [place, sdiff_ofInt hw h]
  ring

/-! ## Slots of a ring -/

/-- The slot of a ring of `N` slots that the integer time `t` falls into. -/
def slot (N : Nat) (t : Int) : Nat := (t % N).toNat

theorem slot_lt {N : Nat} (hN : 0 < N) (t : Int) : slot N t < N := by
  have h0 := Int.emod_nonneg t (b := N) (by omega)
  have h1 := Int.emod_lt_of_pos t (b := N) (by omega)
  unfold slot
  omega

theorem slot_eq_iff {N : Nat} (hN : 0 < N) (t u : Int) :
    slot N t = slot N u ↔ t % N = u % N := by
  have ht := Int.emod_nonneg t (b := N) (by omega)
  have hu := Int.emod_nonneg u (b := N) (by omega)
  unfold slot
  omega

/-- Two times of one slot are a whole number of laps apart. -/
theorem slot_eq_dvd {N : Nat} (hN : 0 < N) {t u : Int} (h : slot N t = slot N u) :
    ∃ k : Int, t = u + N * k := by
  rw [slot_eq_iff hN] at h
  obtain ⟨k, hk⟩ := Int.dvd_of_emod_eq_zero (Int.emod_eq_emod_iff_emod_sub_eq_zero.mp h)
  exact ⟨k, by omega⟩

theorem slot_add_mul (N : Nat) (t k : Int) : slot N (t + N * k) = slot N t := by
  simp [slot]

/-- Times of one slot that are less than a lap apart are equal. -/
theorem slot_inj {N : Nat} (hN : 0 < N) {t u : Int} (h : slot N t = slot N u)
    (h1 : t - u < N) (h2 : u - t < N) : t = u := by
  obtain ⟨k, hk⟩ := slot_eq_dvd hN h
  have hk1 : k < 1 := by
    by_contra hge
    have : (N : Int) * 1 ≤ N * k := Int.mul_le_mul_of_nonneg_left (by omega) (by omega)
    omega
  have hk2 : -1 < k := by
    by_contra hle
    have : (N : Int) * k ≤ N * -1 := Int.mul_le_mul_of_nonneg_left (by omega) (by omega)
    omega
  obtain rfl : k = 0 := by omega
  simpa using hk

/-- Two times of one slot where the second is later are at least a lap apart. -/
theorem slot_lap {N : Nat} (hN : 0 < N) {t u : Int} (h : slot N t = slot N u)
    (hlt : u < t) : u + N ≤ t := by
  by_contra hlap
  have := slot_inj hN h (by omega) (by omega)
  omega

/-- Masking a wrapped counter by a power-of-two ring size gives the slot. -/
theorem mask_ofInt {k : Nat} (hk : k ≤ w) (t : Int) :
    (BitVec.ofInt w t).toNat &&& (2 ^ k - 1) = slot (2 ^ k) t := by
  rw [Nat.and_two_pow_sub_one_eq_mod, BitVec.toNat_ofInt, slot]
  have hdvd : ((2 ^ k : Nat) : Int) ∣ ((2 ^ w : Nat) : Int) := by
    exact_mod_cast Nat.pow_dvd_pow 2 hk
  have h0 := Int.emod_nonneg t (b := ((2 ^ w : Nat) : Int)) (by positivity)
  have := Int.emod_emod_of_dvd t hdvd
  apply Int.ofNat_inj.mp
  rw [Int.natCast_mod, Int.toNat_of_nonneg h0, this,
    Int.toNat_of_nonneg (Int.emod_nonneg _ (by positivity))]

end Serial
