import Inferno.Lib.Serial

/-!
# Clocks and samples

`usize` is 64 bits wide on every target the device server is built for, so
`Clock` and `LongClock` have the same width and the casts between them are
the identity. Differences of clocks are `isize`; they are kept as the
integers they denote.
-/

namespace Inferno

/-- A machine word: `usize`, `u64`. -/
abbrev Usize := BitVec 64

/-- Number of samples since an arbitrary epoch; may wrap. -/
abbrev Clock := Usize

/-- `i32`. -/
abbrev Sample := BitVec 32

/-- `(a as isize).wrapping_sub(b as isize)`. -/
def wrappedDiff (a b : Clock) : Int := Serial.sdiff a b

/-- The ring buffer's own copy of `wrapped_diff`. -/
def wrapsub (a b : Usize) : Int := Serial.sdiff a b

@[simp] theorem wrapsub_self (a : Usize) : wrapsub a a = 0 := Serial.sdiff_self a

/-- `isize` holds it. -/
abbrev FitsIsize (d : Int) : Prop := Serial.Fits 64 d

theorem fitsIsize_iff (d : Int) : FitsIsize d ↔ -2 ^ 63 ≤ d ∧ d < 2 ^ 63 := Iff.rfl

theorem wrapsub_ofInt {a b : Int} (h : FitsIsize (a - b)) :
    wrapsub (BitVec.ofInt 64 a) (BitVec.ofInt 64 b) = a - b :=
  Serial.sdiff_ofInt (by decide) h

theorem ofInt_wrapsub (a b : Usize) : BitVec.ofInt 64 (wrapsub a b) = a - b :=
  Serial.ofInt_sdiff a b

theorem wrappedDiff_eq_sub {a b c : Clock}
    (h : FitsIsize (wrappedDiff a c - wrappedDiff b c)) :
    wrappedDiff a b = wrappedDiff a c - wrappedDiff b c :=
  Serial.sdiff_eq_sub (by decide) h

theorem fitsIsize_wrapsub (a b : Usize) : FitsIsize (wrapsub a b) := Serial.fits_sdiff a b

end Inferno
