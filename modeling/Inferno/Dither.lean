import Inferno.Wire

/-!
# Dithered samples

The writers of 16 and 24 bits add the difference of two random draws and half
a step before they cut a sample. The sum fits an `i32`, saturates at full scale
and is cut downwards, so that what a receiver decodes lies less than one and a
half steps from the sample (`dither_bounded`).
-/

namespace Inferno

/-- `i32` holds it. -/
def FitsI32 (d : Int) : Prop := -2 ^ 31 ≤ d ∧ d < 2 ^ 31

namespace SampleWidth

/-- Bits of a sample that have no room in the cell. -/
def lowBits (w : SampleWidth) : Nat := 32 - 8 * w.bytes

/-- Cutting goes down to the next multiple of a step. -/
theorem toInt_clearLow (w : SampleWidth) (x : Sample) :
    (w.clearLow x).toInt = x.toInt / 2 ^ w.lowBits * 2 ^ w.lowBits := by
  have hlt := x.isLt
  cases w with
  | s16 =>
      have hnat : (SampleWidth.s16.clearLow x).toNat = x.toNat / 65536 * 65536 := by
        show (x >>> 16 <<< 16).toNat = _
        rw [BitVec.toNat_shiftLeft, BitVec.toNat_ushiftRight, Nat.shiftLeft_eq,
          Nat.shiftRight_eq_div_pow]
        omega
      rw [BitVec.toInt_eq_toNat_cond, BitVec.toInt_eq_toNat_cond, hnat]
      show _ = _ / 65536 * 65536
      omega
  | s24 =>
      have hnat : (SampleWidth.s24.clearLow x).toNat = x.toNat / 256 * 256 := by
        show (x >>> 8 <<< 8).toNat = _
        rw [BitVec.toNat_shiftLeft, BitVec.toNat_ushiftRight, Nat.shiftLeft_eq,
          Nat.shiftRight_eq_div_pow]
        omega
      rw [BitVec.toInt_eq_toNat_cond, BitVec.toInt_eq_toNat_cond, hnat]
      show _ = _ / 256 * 256
      omega
  | s32 =>
      have hsame : SampleWidth.s32.clearLow x = x := by
        show x >>> 0 <<< 0 = x
        rw [BitVec.ushiftRight_zero, BitVec.shiftLeft_zero]
      rw [hsame]
      show _ = _ / 1 * 1
      omega

end SampleWidth

/-- `saturating_add` clips and never wraps. -/
theorem toInt_saturatingAdd (x : Sample) (d : Int) :
    (saturatingAdd x d).toInt = max (-2 ^ 31) (min (2 ^ 31 - 1) (x.toInt + d)) := by
  rw [saturatingAdd, BitVec.toInt_ofInt, Int.bmod_eq_of_le]
  · omega
  · omega

/-! ## The draws -/

namespace DitherRng

/-- The generator after `n` more draws. -/
def skip (rng : DitherRng) (n : Nat) : DitherRng := { rng with used := rng.used + n }

@[simp] theorem skip_zero (rng : DitherRng) : rng.skip 0 = rng := rfl

@[simp] theorem skip_skip (rng : DitherRng) (m n : Nat) : (rng.skip m).skip n = rng.skip (m + n) := by
  rw [skip, skip, skip, Nat.add_assoc]

/-- The `n`-th draw from here on. -/
def draw (bits : Nat) (rng : DitherRng) (n : Nat) : Nat := ((rng.skip n).gen bits).1

theorem draw_lt (bits : Nat) (rng : DitherRng) (n : Nat) : rng.draw bits n < 2 ^ bits :=
  Nat.mod_lt _ (Nat.two_pow_pos bits)

theorem draw_skip (bits : Nat) (rng : DitherRng) (m n : Nat) :
    (rng.skip m).draw bits n = rng.draw bits (m + n) := by
  rw [draw, skip_skip, draw]

/-- What is added to the sample that takes draws `n` and `n + 1`. -/
def dither (w : SampleWidth) (rng : DitherRng) (n : Nat) : Int :=
  (rng.draw w.ditherBits n : Int) - rng.draw w.ditherBits (n + 1) + 2 ^ (w.ditherBits - 1)

theorem dither_skip (w : SampleWidth) (rng : DitherRng) (m n : Nat) :
    (rng.skip m).dither w n = rng.dither w (m + n) := by
  rw [dither, draw_skip, draw_skip, dither, Nat.add_assoc]

/-- One draw never weighs more than a step. -/
theorem dither_bounds {w : SampleWidth} (hw : w.bytes < 4) (rng : DitherRng) (n : Nat) :
    2 * rng.dither w n > -2 ^ w.lowBits ∧ 2 * rng.dither w n < 3 * 2 ^ w.lowBits := by
  have h₁ := rng.draw_lt w.ditherBits n
  have h₂ := rng.draw_lt w.ditherBits (n + 1)
  unfold dither
  cases w with
  | s16 =>
      simp only [SampleWidth.ditherBits, SampleWidth.lowBits, SampleWidth.bytes] at h₁ h₂ ⊢
      omega
  | s24 =>
      simp only [SampleWidth.ditherBits, SampleWidth.lowBits, SampleWidth.bytes] at h₁ h₂ ⊢
      omega
  | s32 => exact absurd hw (by decide)

/-- A dithered sample takes two draws. -/
theorem outSample_dithered {w : SampleWidth} (hw : w.bytes < 4) (x : Sample) (rng : DitherRng) :
    outSample w x (some rng) = (saturatingAdd x (rng.dither w 0), some (rng.skip 2)) := by
  rw [outSample, if_pos hw]
  rfl

end DitherRng

/-- Each sample of a lane takes the next two draws. -/
theorem writeSamples_dithered_at {w : SampleWidth} {dstLen stride : Nat} (hw : w.bytes < 4)
    {xs : List Sample} {pos j k : Nat} {dst : Nat → Byte} {rng : DitherRng}
    (hstride : w.bytes ≤ stride) (hj : j < xs.length)
    (hfit : ∀ j < xs.length, pos + j * stride + w.bytes ≤ dstLen) (hk : k < w.bytes) :
    (writeSamples w dstLen stride xs pos dst (some rng)).1 (pos + j * stride + k) =
      (w.cell (saturatingAdd xs[j] (rng.dither w (2 * j)))).get
        ⟨k, by rw [SampleWidth.cell_length]; exact hk⟩ := by
  induction xs generalizing pos j dst rng with
  | nil => cases hj
  | cons x xs ih =>
      have h0 := hfit 0 (Nat.zero_lt_succ _)
      rw [Nat.zero_mul, Nat.add_zero] at h0
      rw [writeSamples, if_pos h0, DitherRng.outSample_dithered hw]
      dsimp only
      cases j with
      | zero =>
          rw [Nat.zero_mul, Nat.add_zero, writeSamples_other]
          · exact putBytes_at (by rw [SampleWidth.cell_length]; exact hk)
          · intro j _
            exact .inl (by omega)
      | succ j =>
          have hpos : pos + (j + 1) * stride + k = pos + stride + j * stride + k := by
            rw [Nat.succ_mul]
            omega
          have hdraws : rng.dither w (2 * (j + 1)) = (rng.skip 2).dither w (2 * j) := by
            rw [DitherRng.dither_skip, Nat.mul_add, Nat.add_comm]
          rw [hpos, ih (Nat.lt_of_succ_lt_succ hj)]
          · rw [hdraws]
            rfl
          · intro j hj
            have hj1 := hfit (j + 1) (Nat.succ_lt_succ hj)
            rw [Nat.succ_mul] at hj1
            omega

/-! ## The error -/

section

variable {w : SampleWidth} {d : Int}

/-- What is decoded of a sample that was dithered by `d`. -/
theorem decoded_error (hw : w.bytes < 4) (x : Sample)
    (hd : 2 * d > -2 ^ w.lowBits ∧ 2 * d < 3 * 2 ^ w.lowBits) :
    2 * |(w.clearLow (saturatingAdd x d)).toInt - x.toInt| < 3 * 2 ^ w.lowBits := by
  have hlt := @BitVec.toInt_lt 32 x
  have hge := @BitVec.le_toInt 32 x
  rw [SampleWidth.toInt_clearLow, toInt_saturatingAdd, Int.abs_eq_natAbs]
  cases w with
  | s16 =>
      simp only [SampleWidth.lowBits, SampleWidth.bytes] at hd ⊢
      omega
  | s24 =>
      simp only [SampleWidth.lowBits, SampleWidth.bytes] at hd ⊢
      omega
  | s32 => exact absurd hw (by decide)

/-- It has the sign of the exact sum: nothing wraps. -/
theorem decoded_sign (x : Sample) (d : Int) :
    0 ≤ (w.clearLow (saturatingAdd x d)).toInt ↔ 0 ≤ x.toInt + d := by
  rw [SampleWidth.toInt_clearLow, toInt_saturatingAdd]
  have hsum : 0 ≤ max (-2 ^ 31) (min (2 ^ 31 - 1) (x.toInt + d)) ↔ 0 ≤ x.toInt + d := by omega
  have hpow : (0 : Int) < 2 ^ w.lowBits := Int.pow_pos (by decide)
  rw [← hsum]
  constructor
  · intro h
    have hdiv := nonneg_of_mul_nonneg_left h hpow
    exact (Int.ediv_nonneg_iff_of_pos hpow).mp hdiv
  · intro h
    exact Int.mul_nonneg (Int.ediv_nonneg h (Int.le_of_lt hpow)) (Int.le_of_lt hpow)

end

/-- Whatever a lane of samples and the draws are, each written cell decodes to
less than one and a half steps from its sample. The draws' sum fits an `i32`,
and the decoded sample is the exact sum, clipped to the range and cut down to a
step, so that it has that sum's sign. -/
theorem dither_bounded (w : SampleWidth) (hw : w = .s16 ∨ w = .s24) (samples : List Sample)
    (dst : Nat → Byte) (dstLen startPos stride : Nat) (hstride : w.bytes ≤ stride)
    (hfit : ∀ j < samples.length, startPos + j * stride + w.bytes ≤ dstLen) (rng : DitherRng)
    (j : Nat) (hj : j < samples.length) :
    let r₁ := rng.draw w.ditherBits (2 * j)
    let r₂ := rng.draw w.ditherBits (2 * j + 1)
    let halfStep : Int := 2 ^ (w.ditherBits - 1)
    let dst' := (writeSamples w dstLen stride samples startPos dst (some rng)).1
    let decoded := w.toSample fun k => dst' (startPos + j * stride + k)
    let exact := samples[j].toInt + (r₁ - r₂ + halfStep)
    (FitsI32 ((r₁ : Int) - r₂) ∧ FitsI32 (r₁ - r₂ + halfStep)) ∧
      2 * |decoded.toInt - samples[j].toInt| < 3 * 2 ^ (32 - 8 * w.bytes) ∧
      decoded.toInt = max (-2 ^ 31) (min (2 ^ 31 - 1) exact) / 2 ^ (32 - 8 * w.bytes) *
        2 ^ (32 - 8 * w.bytes) ∧
      (0 ≤ decoded.toInt ↔ 0 ≤ exact) := by
  intro r₁ r₂ halfStep dst' decoded exact
  have hcut : w.bytes < 4 := by
    rcases hw with rfl | rfl <;> decide
  have hdecoded : decoded = w.clearLow (saturatingAdd samples[j] (rng.dither w (2 * j))) :=
    w.toSample_cell _ _ fun k hk => writeSamples_dithered_at hcut hstride hj hfit hk
  rw [hdecoded]
  refine ⟨?_, decoded_error hcut _ (rng.dither_bounds hcut _), ?_, decoded_sign _ _⟩
  · have h₁ : r₁ < 2 ^ w.ditherBits := rng.draw_lt _ _
    have h₂ : r₂ < 2 ^ w.ditherBits := rng.draw_lt _ _
    unfold FitsI32
    rcases hw with rfl | rfl
    · simp only [SampleWidth.ditherBits, halfStep] at h₁ h₂ ⊢
      omega
    · simp only [SampleWidth.ditherBits, halfStep] at h₁ h₂ ⊢
      omega
  · rw [SampleWidth.toInt_clearLow, toInt_saturatingAdd]
    rfl

/-- Full scale in both directions, with the draws that push it outwards. -/
theorem dither_bounded_fullScale :
    2 * |(SampleWidth.s16.toSample fun k =>
      (writeSamples .s16 4 2 [0x7fffffff, 0x80000000] 0 (fun _ => 0)
        (some ⟨fun n => if n = 0 ∨ n = 3 then 0xffff else 0, 0⟩)).1 (0 + 1 * 2 + k)).toInt -
      -2 ^ 31| < 3 * 2 ^ 16 := by
  have h := dither_bounded .s16 (Or.inl rfl) [0x7fffffff, 0x80000000] (fun _ => 0) 4 0 2
    (by decide) (by decide) ⟨fun n => if n = 0 ∨ n = 3 then 0xffff else 0, 0⟩ 1 (by decide)
  exact h.2.1

end Inferno
