import Mathlib.Data.List.GetD
import Inferno.Common
import Inferno.Lib.Interleave

/-!
# Media packets

The sample writers and readers of `samples_utils`, the packet header and
`FlowsReceiverInternal::receive`. Byte buffers are functions of the position
with their length beside them.

A packet holds `n` interleaved lanes of big-endian cells behind nine bytes of
header. Writing a lane puts the cells of its samples and changes no other byte
(`writeSamples_cell`, `writeSamples_other`); a reader yields exactly the cells
of its lane (`collect_lane`). `wire_round_trip` puts the two together.
-/

namespace Inferno

open Interleave

abbrev Byte := BitVec 8

def MTU : Nat := 1500

/-! ## Bytes of words -/

/-- `to_be_bytes`. -/
def toBeBytes (x : BitVec 32) : List Byte :=
  [x.extractLsb' 24 8, x.extractLsb' 16 8, x.extractLsb' 8 8, x.extractLsb' 0 8]

/-- `u32::from_be_bytes`. -/
def fromBeBytes (b₀ b₁ b₂ b₃ : Byte) : BitVec 32 := b₀ ++ b₁ ++ b₂ ++ b₃

theorem fromBeBytes_toBeBytes (x : BitVec 32) :
    fromBeBytes (x.extractLsb' 24 8) (x.extractLsb' 16 8) (x.extractLsb' 8 8)
      (x.extractLsb' 0 8) = x := by
  unfold fromBeBytes
  apply BitVec.eq_of_getLsbD_eq
  intro i hi
  simp only [BitVec.getLsbD_append, BitVec.getLsbD_extractLsb']
  grind

/-- `dst[pos..pos + bytes.len()].copy_from_slice(bytes)`. -/
def putBytes (dst : Nat → Byte) (pos : Nat) (bytes : List Byte) : Nat → Byte := fun p =>
  if pos ≤ p then bytes.getD (p - pos) (dst p) else dst p

theorem putBytes_at {dst : Nat → Byte} {pos k : Nat} {bytes : List Byte} (hk : k < bytes.length) :
    putBytes dst pos bytes (pos + k) = bytes[k] := by
  rw [putBytes, if_pos (Nat.le_add_right _ _), Nat.add_sub_cancel_left,
    List.getD_eq_getElem _ _ hk]

theorem putBytes_other {dst : Nat → Byte} {pos p : Nat} {bytes : List Byte}
    (h : p < pos ∨ pos + bytes.length ≤ p) : putBytes dst pos bytes p = dst p := by
  unfold putBytes
  split
  · rw [List.getD_eq_default _ _ (by omega)]
  · rfl

/-- A word that was put is read back. -/
theorem fromBeBytes_putBytes (dst : Nat → Byte) (pos : Nat) (x : BitVec 32) :
    fromBeBytes (putBytes dst pos (toBeBytes x) pos) (putBytes dst pos (toBeBytes x) (pos + 1))
      (putBytes dst pos (toBeBytes x) (pos + 2)) (putBytes dst pos (toBeBytes x) (pos + 3)) =
      x := by
  have h0 := @putBytes_at dst pos 0 (toBeBytes x) (show 0 < 4 by decide)
  rw [Nat.add_zero] at h0
  rw [h0, putBytes_at (show 1 < 4 by decide), putBytes_at (show 2 < 4 by decide),
    putBytes_at (show 3 < 4 by decide)]
  exact fromBeBytes_toBeBytes x

/-! ## Sample widths -/

/-- The three instances of `samples_rw!`. -/
inductive SampleWidth where
  | s16
  | s24
  | s32
deriving DecidableEq, Repr

namespace SampleWidth

/-- `$bytes`. -/
def bytes : SampleWidth → Nat
  | s16 => 2
  | s24 => 3
  | s32 => 4

/-- `$dither_type::BITS`. -/
def ditherBits : SampleWidth → Nat
  | s16 => 16
  | s24 => 8
  | s32 => 8

/-- `match bytes_per_sample`. -/
def ofBytes? : Nat → Option SampleWidth
  | 2 => some s16
  | 3 => some s24
  | 4 => some s32
  | _ => none

theorem ofBytes?_bytes (w : SampleWidth) : ofBytes? w.bytes = some w := by
  cases w <;> rfl

theorem bytes_of_ofBytes? {b : Nat} {w : SampleWidth} (h : ofBytes? b = some w) :
    w.bytes = b := by
  unfold ofBytes? at h
  split at h <;> cases h <;> rfl

theorem bytes_pos (w : SampleWidth) : 0 < w.bytes := by
  cases w <;> decide

/-- `$to_sample`, on the bytes of one cell. -/
def toSample (w : SampleWidth) (b : Nat → Byte) : Sample :=
  match w with
  | s16 => ((b 0).setWidth 32 <<< 24) ||| ((b 1).setWidth 32 <<< 16)
  | s24 => ((b 0).setWidth 32 <<< 24) ||| ((b 1).setWidth 32 <<< 16) |||
      ((b 2).setWidth 32 <<< 8)
  | s32 => ((b 0).setWidth 32 <<< 24) ||| ((b 1).setWidth 32 <<< 16) |||
      ((b 2).setWidth 32 <<< 8) ||| (b 3).setWidth 32

/-- A sample with the bits that have no room in the cell cleared. -/
def clearLow (w : SampleWidth) (x : Sample) : Sample :=
  x >>> (32 - 8 * w.bytes) <<< (32 - 8 * w.bytes)

/-- `out_sample.to_be_bytes()[0..$bytes]`. -/
def cell (w : SampleWidth) (x : Sample) : List Byte := (toBeBytes x).take w.bytes

theorem cell_length (w : SampleWidth) (x : Sample) : (w.cell x).length = w.bytes := by
  cases w <;> rfl

theorem toSample_cell (w : SampleWidth) (x : Sample) (b : Nat → Byte)
    (hb : ∀ k (hk : k < w.bytes), b k = (w.cell x).get ⟨k, by rw [cell_length]; exact hk⟩) :
    w.toSample b = w.clearLow x := by
  cases w with
  | s16 =>
      have h0 : b 0 = x.extractLsb' 24 8 := hb 0 (by decide)
      have h1 : b 1 = x.extractLsb' 16 8 := hb 1 (by decide)
      rw [toSample, h0, h1]
      show _ = x >>> 16 <<< 16
      apply BitVec.eq_of_getLsbD_eq
      intro i hi
      simp only [BitVec.getLsbD_or, BitVec.getLsbD_shiftLeft, BitVec.getLsbD_setWidth,
        BitVec.getLsbD_extractLsb', BitVec.getLsbD_ushiftRight]
      grind
  | s24 =>
      have h0 : b 0 = x.extractLsb' 24 8 := hb 0 (by decide)
      have h1 : b 1 = x.extractLsb' 16 8 := hb 1 (by decide)
      have h2 : b 2 = x.extractLsb' 8 8 := hb 2 (by decide)
      rw [toSample, h0, h1, h2]
      show _ = x >>> 8 <<< 8
      apply BitVec.eq_of_getLsbD_eq
      intro i hi
      simp only [BitVec.getLsbD_or, BitVec.getLsbD_shiftLeft, BitVec.getLsbD_setWidth,
        BitVec.getLsbD_extractLsb', BitVec.getLsbD_ushiftRight]
      grind
  | s32 =>
      have h0 : b 0 = x.extractLsb' 24 8 := hb 0 (by decide)
      have h1 : b 1 = x.extractLsb' 16 8 := hb 1 (by decide)
      have h2 : b 2 = x.extractLsb' 8 8 := hb 2 (by decide)
      have h3 : b 3 = x.extractLsb' 0 8 := hb 3 (by decide)
      rw [toSample, h0, h1, h2, h3]
      show _ = x >>> 0 <<< 0
      apply BitVec.eq_of_getLsbD_eq
      intro i hi
      simp only [BitVec.getLsbD_or, BitVec.getLsbD_shiftLeft, BitVec.getLsbD_setWidth,
        BitVec.getLsbD_extractLsb', BitVec.getLsbD_ushiftRight]
      grind

end SampleWidth

/-! ## Writing a lane -/

/-- The random words `SmallRng` will produce, and how many were drawn. -/
structure DitherRng where
  words : Nat → BitVec 32
  used : Nat

/-- `rng.gen::<$dither_type>()`: the low bits of the next word. -/
def DitherRng.gen (bits : Nat) (rng : DitherRng) : Nat × DitherRng :=
  ((rng.words rng.used).toNat % 2 ^ bits, { rng with used := rng.used + 1 })

/-- `i32::saturating_add`. -/
def saturatingAdd (x : Sample) (d : Int) : Sample :=
  BitVec.ofInt 32 (max (-2 ^ 31) (min (2 ^ 31 - 1) (x.toInt + d)))

/-- `out_sample`: dithered if there is a generator and the sample is cut. -/
def outSample (w : SampleWidth) (x : Sample) : Option DitherRng → Sample × Option DitherRng
  | none => (x, none)
  | some rng =>
      if w.bytes < 4 then
        let (r₁, rng) := rng.gen w.ditherBits
        let (r₂, rng) := rng.gen w.ditherBits
        (saturatingAdd x ((r₁ : Int) - r₂ + 2 ^ (w.ditherBits - 1)), some rng)
      else (x, some rng)

/-- `write_s16_samples`, `write_s24_samples`, `write_s32_samples`: `dst` has
`dstLen` bytes, `pos` starts at `start_pos`. -/
def writeSamples (w : SampleWidth) (dstLen stride : Nat) :
    List Sample → Nat → (Nat → Byte) → Option DitherRng → (Nat → Byte) × Option DitherRng
  | [], _, dst, rng => (dst, rng)
  | x :: xs, pos, dst, rng =>
      if pos + w.bytes ≤ dstLen then
        let (y, rng) := outSample w x rng
        writeSamples w dstLen stride xs (pos + stride) (putBytes dst pos (w.cell y)) rng
      else (dst, rng)

variable {w : SampleWidth} {dstLen stride : Nat}

theorem writeSamples_other {xs : List Sample} {pos p : Nat} {dst : Nat → Byte}
    {rng : Option DitherRng}
    (h : ∀ j < xs.length, p < pos + j * stride ∨ pos + j * stride + w.bytes ≤ p) :
    (writeSamples w dstLen stride xs pos dst rng).1 p = dst p := by
  induction xs generalizing pos dst rng with
  | nil => rfl
  | cons x xs ih =>
      have h0 := h 0 (Nat.zero_lt_succ _)
      rw [Nat.zero_mul, Nat.add_zero] at h0
      rw [writeSamples]
      split
      · dsimp only
        rw [ih, putBytes_other (by rw [SampleWidth.cell_length]; exact h0)]
        intro j hj
        have hj1 := h (j + 1) (Nat.succ_lt_succ hj)
        rw [Nat.succ_mul] at hj1
        omega
      · rfl

/-- An undithered sample is in its cell afterwards. -/
theorem writeSamples_at {xs : List Sample} {pos j k : Nat} {dst : Nat → Byte}
    (hstride : w.bytes ≤ stride) (hj : j < xs.length)
    (hfit : ∀ j < xs.length, pos + j * stride + w.bytes ≤ dstLen) (hk : k < w.bytes) :
    (writeSamples w dstLen stride xs pos dst none).1 (pos + j * stride + k) =
      (w.cell xs[j]).get ⟨k, by rw [SampleWidth.cell_length]; exact hk⟩ := by
  induction xs generalizing pos j dst with
  | nil => cases hj
  | cons x xs ih =>
      have h0 := hfit 0 (Nat.zero_lt_succ _)
      rw [Nat.zero_mul, Nat.add_zero] at h0
      rw [writeSamples, if_pos h0]
      simp only [outSample]
      cases j with
      | zero =>
          rw [Nat.zero_mul, Nat.add_zero, writeSamples_other]
          · exact putBytes_at (by rw [SampleWidth.cell_length]; exact hk)
          · intro j _
            exact .inl (by omega)
      | succ j =>
          have hpos : pos + (j + 1) * stride + k = pos + stride + j * stride + k := by
            rw [Nat.succ_mul]
            omega
          rw [hpos, ih (Nat.lt_of_succ_lt_succ hj)]
          · rfl
          · intro j hj
            have hj1 := hfit (j + 1) (Nat.succ_lt_succ hj)
            rw [Nat.succ_mul] at hj1
            omega

/-! ## Packets -/

/-- A channel's samples go into its lane of the packet buffer. -/
abbrev writeLane (w : SampleWidth) (n i : Nat) (samples : List Sample) (pbuff : Nat → Byte) :
    Nat → Byte :=
  (writeSamples w MTU (n * w.bytes) samples (9 + i * w.bytes) pbuff none).1

theorem writeLane_header {n i p : Nat} {row : List Sample} {pbuff : Nat → Byte} (hp : p < 9) :
    writeLane w n i row pbuff p = pbuff p :=
  writeSamples_other fun _ _ => .inl (by omega)

/-- Writing one lane changes no byte of another. -/
theorem writeLane_other {n i i' j' k' : Nat} {row : List Sample} {pbuff : Nat → Byte}
    (hi : i < n) (hi' : i' < n) (hne : i ≠ i') (hk' : k' < w.bytes) :
    writeLane w n i row pbuff (9 + cellPos n w.bytes i' j' + k') =
      pbuff (9 + cellPos n w.bytes i' j' + k') := by
  refine writeSamples_other fun j _ => ?_
  by_contra hin
  obtain ⟨k, hk⟩ : ∃ k, cellPos n w.bytes i j + k = cellPos n w.bytes i' j' + k' ∧
      k < w.bytes := by
    refine ⟨cellPos n w.bytes i' j' + k' - cellPos n w.bytes i j, ?_⟩
    unfold cellPos at hin ⊢
    omega
  exact hne (cell_inj hi hi' hk.2 hk' hk.1).1

theorem writeLane_at {n i j k m : Nat} {row : List Sample} {pbuff : Nat → Byte} (hi : i < n)
    (hm : 9 + n * w.bytes * m ≤ MTU) (hrow : row.length ≤ m) (hj : j < row.length)
    (hk : k < w.bytes) :
    writeLane w n i row pbuff (9 + cellPos n w.bytes i j + k) =
      (w.cell row[j]).get ⟨k, by rw [SampleWidth.cell_length]; exact hk⟩ := by
  rw [show 9 + cellPos n w.bytes i j + k = 9 + i * w.bytes + j * (n * w.bytes) + k by
    unfold cellPos; omega]
  refine writeSamples_at (Nat.le_mul_of_pos_left _ (Nat.zero_lt_of_lt hi)) hj ?_ hk
  intro j hj
  have hfit := (cell_fits_iff (n := n) (m := m) hi w.bytes_pos).mpr (Nat.lt_of_lt_of_le hj hrow)
  unfold cellPos at hfit
  omega

/-- The lanes of a packet, one after the other, from lane `i` on. -/
def writeLanes (w : SampleWidth) (n : Nat) : List (List Sample) → Nat → (Nat → Byte) → Nat → Byte
  | [], _, pbuff => pbuff
  | row :: rows, i, pbuff => writeLanes w n rows (i + 1) (writeLane w n i row pbuff)

theorem writeLanes_header {n i p : Nat} {rows : List (List Sample)} {pbuff : Nat → Byte}
    (hp : p < 9) : writeLanes w n rows i pbuff p = pbuff p := by
  induction rows generalizing i pbuff with
  | nil => rfl
  | cons row rows ih => rw [writeLanes, ih, writeLane_header hp]

theorem writeLanes_before {n i i' j' k' : Nat} {rows : List (List Sample)}
    {pbuff : Nat → Byte} (hn : i + rows.length ≤ n) (hi' : i' < i) (hk' : k' < w.bytes) :
    writeLanes w n rows i pbuff (9 + cellPos n w.bytes i' j' + k') =
      pbuff (9 + cellPos n w.bytes i' j' + k') := by
  induction rows generalizing i pbuff with
  | nil => rfl
  | cons row rows ih =>
      rw [List.length_cons] at hn
      rw [writeLanes, ih (by omega) (by omega),
        writeLane_other (by omega) (by omega) (by omega) hk']

theorem writeLanes_at {n i l j k m : Nat} {rows : List (List Sample)} {pbuff : Nat → Byte}
    (hn : i + rows.length ≤ n) (hm : 9 + n * w.bytes * m ≤ MTU)
    (hrows : ∀ row ∈ rows, row.length = m) (hl : l < rows.length) (hj : j < rows[l].length)
    (hk : k < w.bytes) :
    writeLanes w n rows i pbuff (9 + cellPos n w.bytes (i + l) j + k) =
      (w.cell rows[l][j]).get ⟨k, by rw [SampleWidth.cell_length]; exact hk⟩ := by
  induction rows generalizing i l pbuff with
  | nil => cases hl
  | cons row rows ih =>
      rw [List.length_cons] at hn
      rw [writeLanes]
      cases l with
      | zero =>
          have hn' : i + 1 + rows.length ≤ n := by omega
          rw [show i + 0 = i from rfl, writeLanes_before hn' (Nat.lt_succ_self i) hk]
          exact writeLane_at (by omega) hm (Nat.le_of_eq (hrows _ List.mem_cons_self)) hj hk
      | succ l =>
          rw [show i + (l + 1) = i + 1 + l by omega]
          exact ih (by omega) (fun row hrow => hrows row (List.mem_cons_of_mem _ hrow))
            (Nat.lt_of_succ_lt_succ hl) hj

/-- The header of `packet_ts`; `none` is a division by zero. -/
def writeHeader (sampleRate : BitVec 32) (packetTs : Clock) (pbuff : Nat → Byte) :
    Option (Nat → Byte) :=
  if sampleRate = 0 then none
  else
    let seconds := packetTs / sampleRate.setWidth 64
    let subsecSamples := packetTs % sampleRate.setWidth 64
    let pbuff := putBytes pbuff 0 [2]
    let pbuff := putBytes pbuff 1 (toBeBytes (seconds.setWidth 32))
    some (putBytes pbuff 5 (toBeBytes (subsecSamples.setWidth 32)))

/-- A packet of `rows`, undithered. -/
def encodePacket (w : SampleWidth) (sampleRate : BitVec 32) (packetTs : Clock)
    (rows : List (List Sample)) (pbuff : Nat → Byte) : Option (Nat → Byte) :=
  (writeHeader sampleRate packetTs pbuff).map (writeLanes w rows.length rows 0)

/-- The timestamp `receive` takes from the header. -/
def headerTimestamp (sampleRate : BitVec 32) (buf : Nat → Byte) : Clock :=
  (fromBeBytes (buf 1) (buf 2) (buf 3) (buf 4)).setWidth 64 * sampleRate.setWidth 64 +
    (fromBeBytes (buf 5) (buf 6) (buf 7) (buf 8)).setWidth 64

theorem headerTimestamp_congr {sampleRate : BitVec 32} {buf buf' : Nat → Byte}
    (h : ∀ p < 9, buf p = buf' p) : headerTimestamp sampleRate buf = headerTimestamp sampleRate buf' := by
  simp only [headerTimestamp, h 1 (by decide), h 2 (by decide), h 3 (by decide), h 4 (by decide),
    h 5 (by decide), h 6 (by decide), h 7 (by decide), h 8 (by decide)]

/-- Seconds and samples put together again, as long as the seconds fit. -/
theorem headerTimestamp_writeHeader {sampleRate : BitVec 32} {packetTs : Clock}
    {pbuff buf : Nat → Byte} (h : writeHeader sampleRate packetTs pbuff = some buf)
    (hsec : packetTs.toNat / sampleRate.toNat < 2 ^ 32) :
    headerTimestamp sampleRate buf = packetTs := by
  unfold writeHeader at h
  split at h
  · cases h
  · next hrate =>
      obtain rfl := Option.some.inj h
      have hpos : 0 < sampleRate.toNat := by
        rw [Nat.pos_iff_ne_zero]
        exact fun h0 => hrate (BitVec.eq_of_toNat_eq h0)
      have hsub : packetTs.toNat % sampleRate.toNat < 2 ^ 32 :=
        Nat.lt_trans (Nat.mod_lt _ hpos) sampleRate.isLt
      have hbefore : ∀ (dst : Nat → Byte) (bytes : List Byte) (p : Nat), p < 5 →
          putBytes dst 5 bytes p = dst p := fun _ _ _ hp => putBytes_other (.inl hp)
      rw [headerTimestamp, hbefore _ _ 1 (by decide), hbefore _ _ 2 (by decide),
        hbefore _ _ 3 (by decide), hbefore _ _ 4 (by decide), fromBeBytes_putBytes _ 1,
        fromBeBytes_putBytes _ 5]
      apply BitVec.eq_of_toNat_eq
      have hrate64 : sampleRate.toNat % 2 ^ 64 = sampleRate.toNat :=
        Nat.mod_eq_of_lt (Nat.lt_trans sampleRate.isLt (by decide))
      have hsec64 : packetTs.toNat / sampleRate.toNat % 2 ^ 64 =
          packetTs.toNat / sampleRate.toNat :=
        Nat.mod_eq_of_lt (Nat.lt_trans hsec (by decide))
      simp only [BitVec.toNat_add, BitVec.toNat_mul, BitVec.toNat_setWidth, BitVec.toNat_udiv,
        BitVec.toNat_umod, hrate64, Nat.mod_eq_of_lt hsec, Nat.mod_eq_of_lt hsub, hsec64]
      rw [← Nat.add_mod, Nat.div_add_mod', Nat.mod_eq_of_lt packetTs.isLt]

/-! ## Reading a lane -/

structure SamplesReader where
  bytes : Nat → Byte
  len : Nat
  readPos : Nat
  stride : Nat
  remainingSamples : Usize

namespace SamplesReader

def getNextBytes (r : SamplesReader) (count : Nat) : Option (Nat → Byte) × SamplesReader :=
  if r.readPos + count > r.len then (none, r)
  else
    (some fun k => r.bytes (r.readPos + k),
      { r with readPos := r.readPos + r.stride, remainingSamples := r.remainingSamples - 1 })

/-- `next` of the reader iterators. -/
def next (w : SampleWidth) (r : SamplesReader) : Option Sample × SamplesReader :=
  let (b, r) := r.getNextBytes w.bytes
  (b.map w.toSample, r)

/-- The items of the first `n` calls of `next`, up to the first `None`. -/
def collect (w : SampleWidth) : Nat → SamplesReader → List Sample × SamplesReader
  | 0, r => ([], r)
  | n + 1, r =>
      match r.next w with
      | (none, r) => ([], r)
      | (some x, r) =>
          let (xs, r) := collect w n r
          (x :: xs, r)

/-- The reader of lane `i` of `n`, at its `j`-th cell out of `m`. -/
def atCell (w : SampleWidth) (bytes : Nat → Byte) (n i j m : Nat) : SamplesReader where
  bytes := bytes
  len := n * w.bytes * m
  readPos := cellPos n w.bytes i j
  stride := n * w.bytes
  remainingSamples := BitVec.ofNat 64 (m - j)

variable {bytes : Nat → Byte} {n i j m : Nat}

theorem next_atCell (hi : i < n) (hj : j < m) :
    (atCell w bytes n i j m).next w =
      (some (w.toSample fun k => bytes (cellPos n w.bytes i j + k)),
        atCell w bytes n i (j + 1) m) := by
  have hfit := (cell_fits_iff hi w.bytes_pos).mpr hj
  have hrem : BitVec.ofNat 64 (m - j) - 1 = BitVec.ofNat 64 (m - (j + 1)) := by
    rw [show m - j = m - (j + 1) + 1 by omega, BitVec.ofNat_add]
    exact add_sub_cancel_right _ _
  simp only [next, getNextBytes, atCell, if_neg (Nat.not_lt.mpr hfit), Option.map_some, hrem,
    cellPos_succ]

theorem next_atCell_end (hi : i < n) :
    (atCell w bytes n i m m).next w = (none, atCell w bytes n i m m) := by
  have hend : n * w.bytes * m < cellPos n w.bytes i m + w.bytes :=
    Nat.not_le.mp fun h => Nat.lt_irrefl m ((cell_fits_iff hi w.bytes_pos).mp h)
  have hnone : (atCell w bytes n i m m).getNextBytes w.bytes = (none, atCell w bytes n i m m) :=
    if_pos hend
  rw [next, hnone]
  rfl

/-- A lane that holds the cells of `row` yields `row`, cut to the width, and
then ends, having counted down to zero. -/
theorem collect_lane (hi : i < n) {row : List Sample} (hrow : row.length = m)
    (hbytes : ∀ j k (hj : j < row.length) (hk : k < w.bytes),
      bytes (cellPos n w.bytes i j + k) =
        (w.cell row[j]).get ⟨k, by rw [SampleWidth.cell_length]; exact hk⟩)
    {calls : Nat} (hcalls : m ≤ calls) :
    (atCell w bytes n i 0 m).collect w calls = (row.map w.clearLow, atCell w bytes n i m m) := by
  suffices h : ∀ d j, j + d = m → ∀ calls, d ≤ calls →
      (atCell w bytes n i j m).collect w calls =
        ((row.drop j).map w.clearLow, atCell w bytes n i m m) from
    h m 0 (Nat.zero_add m) calls hcalls
  intro d
  induction d with
  | zero =>
      rintro j rfl calls -
      rw [Nat.add_zero] at hrow ⊢
      rw [List.drop_of_length_le (Nat.le_of_eq hrow)]
      cases calls with
      | zero => rfl
      | succ calls => rw [collect, next_atCell_end hi]; rfl
  | succ d ih =>
      intro j hjd calls hd
      obtain ⟨calls, rfl⟩ : ∃ c, calls = c + 1 := ⟨calls - 1, by omega⟩
      have hj : j < row.length := by omega
      rw [collect, next_atCell hi (by omega)]
      dsimp only
      rw [ih (j + 1) (by omega) calls (by omega), List.drop_eq_getElem_cons hj, List.map_cons,
        w.toSample_cell row[j] _ fun k hk => hbytes j k hj hk]

end SamplesReader

/-! ## Receiving -/

/-- `FlowStats` without the jitter, a float nothing else depends on. -/
structure FlowStats where
  packetsReceived : Usize
  packetsExpected : Usize
  lastTimestamp : Usize
  missedPackets : Usize
deriving DecidableEq

/-- `FlowStats::new`. -/
def FlowStats.new : FlowStats := ⟨0, 0, 0, 0⟩

/-- "Update packet stats"; `none` is a division by zero. The last step empties
the record if `last_log_time` is ten seconds ago. -/
def FlowStats.update (stats : FlowStats) (timestamp : Clock) (sampleRate : BitVec 32)
    (logDue : Bool) : Option FlowStats := do
  let stats := { stats with packetsReceived := stats.packetsReceived + 1 }
  let stats ←
    if 0 < stats.lastTimestamp then
      let timestampDiff := timestamp - stats.lastTimestamp
      if sampleRate = 0 then none
      else
        let expected := stats.packetsExpected + timestampDiff / sampleRate.setWidth 64
        let frameSize := (sampleRate / 1000).setWidth 64
        if timestampDiff > frameSize * 3 / 2 then
          if frameSize = 0 then none
          else
            let missed := timestampDiff / frameSize
            let missed := if missed = 0 then 0 else missed - 1
            some { stats with
              packetsExpected := expected, missedPackets := stats.missedPackets + missed }
        else some { stats with packetsExpected := expected }
    else some { stats with packetsExpected := 1 }
  let stats := { stats with lastTimestamp := timestamp }
  some (if logDue then FlowStats.new else stats)

/-- From 1000 Hz on the statistics never divide by zero. -/
theorem FlowStats.update_isSome (stats : FlowStats) (timestamp : Clock) {sampleRate : BitVec 32}
    (logDue : Bool) (h : 1000 ≤ sampleRate.toNat ∨ stats.lastTimestamp = 0) :
    ∃ stats', stats.update timestamp sampleRate logDue = some stats' := by
  unfold update
  dsimp only
  split
  · next hlast =>
      have hrate : 1000 ≤ sampleRate.toNat := h.resolve_right fun h0 => by
        rw [h0] at hlast
        exact absurd hlast (by decide)
      have hne : sampleRate ≠ 0 := by
        rintro rfl
        exact absurd hrate (by decide)
      have hframe : (sampleRate / 1000).setWidth 64 ≠ 0 := by
        intro h0
        have hnat : _ = 0 := congrArg BitVec.toNat h0
        rw [BitVec.toNat_setWidth, BitVec.toNat_udiv, show (1000 : BitVec 32).toNat = 1000 from rfl]
          at hnat
        have := sampleRate.isLt
        omega
      rw [if_neg hne, if_neg hframe]
      split <;> exact ⟨_, rfl⟩
  · exact ⟨_, rfl⟩

structure SocketAddr where
  ip : BitVec 32
  port : BitVec 16
deriving DecidableEq

/-- `Channel`; a sink is told by a name of type `S`. -/
structure RxChannel (S : Type) where
  sinks : List S
  timestampShift : Usize
  latencySamples : Usize

/-- What `receive` uses of a `SocketData`. -/
structure SocketData (S : Type) where
  lastSource : Option SocketAddr
  lastPacketTime : Usize
  bytesPerSample : Nat
  channels : List (Option (RxChannel S))
  actualLatencySamples : Int
  stats : FlowStats

/-- A datagram as `recv_from` returns it, with what the clocks say then. -/
structure Datagram where
  buf : Nat → Byte
  recvSize : Nat
  src : SocketAddr
  now : Option Clock
  elapsed : Usize
  logDue : Bool

/-- `sink.write_from_at(ts, reader)`. -/
structure SinkWrite (S : Type) where
  sink : S
  startTimestamp : Usize
  width : SampleWidth
  reader : SamplesReader

variable {S : Type}

/-- The samples a call of `write_from_at` is given. -/
def SinkWrite.items (c : SinkWrite S) : List Sample :=
  (c.reader.collect c.width c.reader.remainingSamples.toNat).1

/-- The `write_from_at` calls for the channel at position `i`. -/
def channelWrites (w : SampleWidth) (timestamp : Clock) (audioBytes : Nat → Byte)
    (len stride : Nat) : Option (RxChannel S) × Nat → List (SinkWrite S)
  | (none, _) => []
  | (some ch, i) => ch.sinks.map fun sink =>
      { sink
        startTimestamp := timestamp + ch.timestampShift
        width := w
        reader := {
          bytes := audioBytes
          len := len
          readPos := i * w.bytes
          stride := stride
          remainingSamples := BitVec.ofNat 64 (len / stride) } }

/-- `if write`: `none` is a division by zero or an unsupported width. -/
def sinkWrites (bytesPerSample : Nat) (channels : List (Option (RxChannel S)))
    (timestamp : Clock) (buf : Nat → Byte) (recvSize : Nat) : Option (List (SinkWrite S)) :=
  let stride := channels.length * bytesPerSample
  if bytesPerSample = 0 ∨ stride = 0 then none
  else
    match SampleWidth.ofBytes? bytesPerSample with
    | some w => some (channels.zipIdx.flatMap
        (channelWrites w timestamp (fun k => buf (9 + k)) (recvSize - 9) stride))
    | none => if channels.all (·.all (·.sinks.isEmpty)) then some [] else none

/-- One datagram of at least nine bytes. -/
def receiveDatagram (sd : SocketData S) (sampleRate : BitVec 32) (write : Bool) (d : Datagram) :
    Option (SocketData S × List (SinkWrite S)) := do
  let timestamp := headerTimestamp sampleRate d.buf
  let stats ← sd.stats.update timestamp sampleRate d.logDue
  let latency := match d.now with
    | some now => max sd.actualLatencySamples
        (max 0 (min (wrappedDiff now timestamp) (2 ^ 31 - 1)))
    | none => sd.actualLatencySamples
  let sd := { sd with stats := stats, actualLatencySamples := latency }
  if write then do
    let calls ← sinkWrites sd.bytesPerSample sd.channels timestamp d.buf d.recvSize
    some ({ sd with lastPacketTime := d.elapsed, lastSource := some d.src }, calls)
  else some ({ sd with lastSource := some d.src }, [])

/-- `receive`: the datagrams that wait, up to the first that is too small; the
last component is what still waits. -/
def receive (sampleRate : BitVec 32) (write : Bool) :
    List Datagram → SocketData S → Option (SocketData S × List (SinkWrite S) × List Datagram)
  | [], sd => some (sd, [], [])
  | d :: ds, sd =>
      if d.recvSize < 9 then some (sd, [], ds)
      else do
        let (sd, calls) ← receiveDatagram sd sampleRate write d
        let (sd, calls', rest) ← receive sampleRate write ds sd
        some (sd, calls ++ calls', rest)

/-! ## The round trip -/

/-- What the sinks of the channels are to be given, each its own row. -/
def deliveries (w : SampleWidth) (packetTs : Clock) (channels : List (Option (RxChannel S)))
    (rows : List (List Sample)) : List (S × Usize × List Sample) :=
  (channels.zip rows).flatMap fun (ch, row) =>
    ch.toList.flatMap fun ch => ch.sinks.map fun sink =>
      (sink, packetTs + ch.timestampShift, row.map w.clearLow)

theorem flatMap_zipIdx {A B C : Type} {f : A × Nat → List C} {g : A × B → List C} {as : List A}
    {bs : List B} {start : Nat} (hlen : as.length = bs.length)
    (h : ∀ i (ha : i < as.length) (hb : i < bs.length), f (as[i], start + i) = g (as[i], bs[i])) :
    (as.zipIdx start).flatMap f = (as.zip bs).flatMap g := by
  induction as generalizing bs start with
  | nil => rfl
  | cons a as ih =>
      cases bs with
      | nil => cases hlen
      | cons b bs =>
          rw [List.zipIdx_cons, List.zip_cons_cons, List.flatMap_cons, List.flatMap_cons,
            ih (Nat.succ.inj hlen), show f (a, start) = g (a, b) from h 0 (by simp) (by simp)]
          intro i ha hb
          rw [show start + 1 + i = start + (i + 1) by omega]
          exact h (i + 1) (Nat.succ_lt_succ ha) (Nat.succ_lt_succ hb)

/-- For a full packet every reader starts its lane. -/
theorem channelWrites_full {n fpp : Nat} (hn : 0 < n) (timestamp : Clock)
    (audioBytes : Nat → Byte) (ch : RxChannel S) (i : Nat) :
    channelWrites w timestamp audioBytes (n * w.bytes * fpp) (n * w.bytes) (some ch, i) =
      ch.sinks.map fun sink =>
        ⟨sink, timestamp + ch.timestampShift, w, .atCell w audioBytes n i 0 fpp⟩ := by
  rw [channelWrites, SamplesReader.atCell, cellPos_zero, Nat.sub_zero,
    Nat.mul_div_cancel_left _ (Nat.mul_pos hn w.bytes_pos)]

/-- The lanes of an encoded packet hold the cells of the rows. -/
theorem encodePacket_at {sampleRate : BitVec 32} {packetTs : Clock} {rows : List (List Sample)}
    {pbuff buf : Nat → Byte} {fpp : Nat} (hrows : ∀ row ∈ rows, row.length = fpp)
    (hmtu : 9 + rows.length * w.bytes * fpp ≤ MTU)
    (h : encodePacket w sampleRate packetTs rows pbuff = some buf) {i j k : Nat}
    (hi : i < rows.length) (hj : j < rows[i].length) (hk : k < w.bytes) :
    buf (9 + (cellPos rows.length w.bytes i j + k)) =
      (w.cell rows[i][j]).get ⟨k, by rw [SampleWidth.cell_length]; exact hk⟩ := by
  obtain ⟨hdr, _, rfl⟩ := Option.map_eq_some_iff.mp h
  have hat := @writeLanes_at w rows.length 0 i j k fpp rows hdr (Nat.le_of_eq (Nat.zero_add _))
    hmtu hrows hi hj hk
  rw [Nat.zero_add] at hat
  rw [← Nat.add_assoc]
  exact hat

theorem encodePacket_timestamp {sampleRate : BitVec 32} {packetTs : Clock}
    {rows : List (List Sample)} {pbuff buf : Nat → Byte}
    (h : encodePacket w sampleRate packetTs rows pbuff = some buf)
    (hsec : packetTs.toNat / sampleRate.toNat < 2 ^ 32) :
    headerTimestamp sampleRate buf = packetTs := by
  obtain ⟨hdr, hhdr, rfl⟩ := Option.map_eq_some_iff.mp h
  rw [headerTimestamp_congr fun _ hp => writeLanes_header hp,
    headerTimestamp_writeHeader hhdr hsec]

theorem sinkWrites_full {channels : List (Option (RxChannel S))} {n fpp : Nat} (hn : 0 < n)
    (hch : channels.length = n) (timestamp : Clock) (buf : Nat → Byte) :
    sinkWrites w.bytes channels timestamp buf (9 + n * w.bytes * fpp) =
      some (channels.zipIdx.flatMap
        (channelWrites w timestamp (fun k => buf (9 + k)) (n * w.bytes * fpp) (n * w.bytes))) := by
  have hpos := w.bytes_pos
  have hstride : n * w.bytes ≠ 0 := Nat.ne_of_gt (Nat.mul_pos hn hpos)
  rw [sinkWrites, hch, if_neg (by omega), SampleWidth.ofBytes?_bytes, Nat.add_sub_cancel_left]

theorem receive_one {sampleRate : BitVec 32} {sd sd' : SocketData S} {d : Datagram}
    {calls : List (SinkWrite S)} (hsize : 9 ≤ d.recvSize)
    (h : receiveDatagram sd sampleRate true d = some (sd', calls)) :
    receive sampleRate true [d] sd = some (sd', calls, []) := by
  rw [receive, if_neg (Nat.not_lt.mpr hsize), h]
  simp [receive]

theorem receiveDatagram_eq {sampleRate : BitVec 32} {sd : SocketData S} {d : Datagram}
    {stats : FlowStats} {calls : List (SinkWrite S)}
    (hstats : sd.stats.update (headerTimestamp sampleRate d.buf) sampleRate d.logDue = some stats)
    (hcalls : sinkWrites sd.bytesPerSample sd.channels (headerTimestamp sampleRate d.buf) d.buf
      d.recvSize = some calls) :
    ∃ sd', receiveDatagram sd sampleRate true d = some (sd', calls) := by
  simp only [receiveDatagram, hstats, hcalls, Option.bind_eq_bind, Option.bind_some, if_true]
  exact ⟨_, rfl⟩

/-- The readers of a call list for a full packet start their lanes. -/
theorem mem_channelWrites {channels : List (Option (RxChannel S))} {n fpp : Nat} (hn : 0 < n)
    (hch : channels.length = n) {timestamp : Clock} {audioBytes : Nat → Byte} {c : SinkWrite S}
    (hc : c ∈ channels.zipIdx.flatMap
      (channelWrites w timestamp audioBytes (n * w.bytes * fpp) (n * w.bytes))) :
    ∃ i < n, c.width = w ∧ c.reader = .atCell w audioBytes n i 0 fpp := by
  obtain ⟨⟨ch, i⟩, hmem, hc⟩ := List.mem_flatMap.mp hc
  have hi := (List.mem_zipIdx' hmem).1
  cases ch with
  | none => cases hc
  | some ch =>
      rw [channelWrites_full hn] at hc
      obtain ⟨sink, _, rfl⟩ := List.mem_map.mp hc
      exact ⟨i, hch ▸ hi, rfl, rfl⟩

/-- A packet of `n` lanes of `fpp` samples is received as it was sent. -/
theorem wire_round_trip (w : SampleWidth) (rows : List (List Sample)) (fpp : Nat)
    (hn : 0 < rows.length) (hrows : ∀ row ∈ rows, row.length = fpp)
    (hmtu : 9 + rows.length * w.bytes * fpp ≤ MTU) (sampleRate : BitVec 32)
    (hrate : sampleRate ≠ 0) (packetTs : Clock)
    (hsec : packetTs.toNat / sampleRate.toNat < 2 ^ 32) (pbuff : Nat → Byte)
    (sd : SocketData S) (hb : sd.bytesPerSample = w.bytes)
    (hch : sd.channels.length = rows.length)
    (hstats : 1000 ≤ sampleRate.toNat ∨ sd.stats.lastTimestamp = 0) (src : SocketAddr)
    (now : Option Clock) (elapsed : Usize) (logDue : Bool) :
    ∃ buf sd' calls, encodePacket w sampleRate packetTs rows pbuff = some buf ∧
      headerTimestamp sampleRate buf = packetTs ∧
      receive sampleRate true
        [⟨buf, 9 + rows.length * w.bytes * fpp, src, now, elapsed, logDue⟩] sd =
        some (sd', calls, []) ∧
      (calls.map fun c => (c.sink, c.startTimestamp, c.items)) =
        deliveries w packetTs sd.channels rows ∧
      (∀ c ∈ calls, c.reader.remainingSamples.toNat = fpp ∧ c.items.length = fpp ∧
        ∀ k, fpp ≤ k → (c.reader.collect c.width k).1 = c.items) ∧
      ∀ i i' : Nat, i < rows.length → i' < rows.length → i ≠ i' →
        ∀ (samples : List Sample) (dst : Nat → Byte) (j k : Nat), k < w.bytes →
          writeLane w rows.length i samples dst (9 + cellPos rows.length w.bytes i' j + k) =
            dst (9 + cellPos rows.length w.bytes i' j + k) := by
  obtain ⟨hdr, hhdr⟩ : ∃ hdr, writeHeader sampleRate packetTs pbuff = some hdr := ⟨_, if_neg hrate⟩
  obtain ⟨buf, hbuf⟩ : ∃ buf, encodePacket w sampleRate packetTs rows pbuff = some buf :=
    ⟨_, by rw [encodePacket, hhdr]; rfl⟩
  have hts := encodePacket_timestamp hbuf hsec
  obtain ⟨stats, hstats⟩ := sd.stats.update_isSome packetTs logDue hstats
  obtain ⟨calls, hcalls⟩ : ∃ calls, calls = sd.channels.zipIdx.flatMap (channelWrites w packetTs
    (fun k => buf (9 + k)) (rows.length * w.bytes * fpp) (rows.length * w.bytes)) := ⟨_, rfl⟩
  obtain ⟨sd', hrec⟩ : ∃ sd', receiveDatagram sd sampleRate true
      ⟨buf, 9 + rows.length * w.bytes * fpp, src, now, elapsed, logDue⟩ = some (sd', calls) := by
    refine receiveDatagram_eq (by rw [hts]; exact hstats) ?_
    rw [hts, hb, sinkWrites_full hn hch, hcalls]
  -- every reader yields the row of its lane
  have hlane : ∀ i (hi : i < rows.length) k, fpp ≤ k →
      (SamplesReader.atCell w (fun k => buf (9 + k)) rows.length i 0 fpp).collect w k =
        (rows[i].map w.clearLow, .atCell w (fun k => buf (9 + k)) rows.length i fpp fpp) :=
    fun i hi k hk => SamplesReader.collect_lane hi (hrows _ (List.getElem_mem hi))
      (fun j k hj hk => encodePacket_at hrows hmtu hbuf hi hj hk) hk
  have hfpp : fpp < 2 ^ 64 := by
    have : fpp ≤ rows.length * w.bytes * fpp :=
      Nat.le_mul_of_pos_left _ (Nat.mul_pos hn w.bytes_pos)
    unfold MTU at hmtu
    omega
  have hrem : (BitVec.ofNat 64 (fpp - 0)).toNat = fpp := by
    rw [BitVec.toNat_ofNat, Nat.sub_zero, Nat.mod_eq_of_lt hfpp]
  refine ⟨buf, sd', calls, hbuf, hts, receive_one (Nat.le_add_right _ _) hrec, ?_, ?_, ?_⟩
  · rw [hcalls, List.map_flatMap, deliveries]
    refine flatMap_zipIdx hch fun i hi hi' => ?_
    rw [Nat.zero_add]
    cases sd.channels[i] with
    | none => rfl
    | some ch =>
        rw [channelWrites_full hn, List.map_map]
        simp only [Option.toList_some, List.flatMap_singleton]
        refine List.map_congr_left fun sink _ => ?_
        have hread := congrArg Prod.fst (hlane i hi' _ (Nat.le_of_eq hrem.symm))
        exact congrArg (fun xs => (sink, packetTs + ch.timestampShift, xs)) hread
  · intro c hc
    rw [hcalls] at hc
    obtain ⟨i, hi, hw, hreader⟩ := mem_channelWrites hn hch hc
    have hitems : ∀ k, fpp ≤ k → (c.reader.collect c.width k).1 = rows[i].map w.clearLow := by
      intro k hk
      rw [hw, hreader, hlane i hi k hk]
    have hcount : c.reader.remainingSamples.toNat = fpp := by
      rw [hreader]
      exact hrem
    have hself := hitems _ (Nat.le_of_eq hcount.symm)
    refine ⟨hcount, ?_, fun k hk => ?_⟩
    · rw [SinkWrite.items, hself, List.length_map, hrows _ (List.getElem_mem hi)]
    · rw [SinkWrite.items, hself, hitems k hk]
  · exact fun i i' hi hi' hne samples dst j k hk => writeLane_other hi hi' hne hk

/-- Two channels, the second with two sinks. -/
def twoChannels : SocketData Nat where
  lastSource := none
  lastPacketTime := 0
  bytesPerSample := 3
  channels := [some ⟨[10], 5, 0⟩, some ⟨[20, 21], -5, 0⟩]
  actualLatencySamples := 0
  stats := .new

theorem wire_round_trip_twoChannels :
    ∃ buf sd' calls,
      encodePacket .s24 48000 96007 [[0x12345678, -1], [0x100, 0xff]] (fun _ => 0) = some buf ∧
      headerTimestamp 48000 buf = 96007 ∧
      receive 48000 true [⟨buf, 21, ⟨0, 0⟩, none, 0, false⟩] twoChannels = some (sd', calls, []) ∧
      (calls.map fun c => (c.sink, c.startTimestamp, c.items)) =
        [(10, 96012, [0x12345600, -256]), (20, 96002, [0x100, 0]), (21, 96002, [0x100, 0])] := by
  obtain ⟨buf, sd', calls, hbuf, hts, hrec, hcalls, _⟩ := wire_round_trip .s24
    [[0x12345678, -1], [0x100, 0xff]] 2 (by decide) (by decide) (by decide) 48000 (by decide)
    96007 (by decide) (fun _ => 0) twoChannels rfl rfl (.inr rfl) ⟨0, 0⟩ none 0 false
  refine ⟨buf, sd', calls, hbuf, hts, hrec, ?_⟩
  rw [hcalls]
  decide

end Inferno
