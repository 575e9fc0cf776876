import Mathlib.Data.List.GetD
import Mathlib.Data.List.Infix
import Mathlib.Tactic.Common

/-!
# A growing buffer with a write position

Bytes are written at the position: over what is there, and on behind the end.
The position is never behind the end, which the structure says. A buffer that
is only ever written to at its end is a list of bytes (`ofBytes`), and stays
one (`ofBytes_writeBytes`); going back to a position inside and writing there
changes these bytes and no others (`setWpos_writeBytes_take`,
`setWpos_writeBytes_drop`).

Words go out big-endian (`be16`, `be32`) and are read back from wherever they
stand (`word16`, `word32`). That bytes stand somewhere (`StandsAt`) is kept by
whatever leaves the part from there on alone and only adds at its end (`Grows`).
-/

/-- Bytes, and where the next one is written. -/
structure ByteBuffer where
  data : List (BitVec 8)
  wpos : Nat
  wpos_le : wpos ≤ data.length

namespace ByteBuffer

def be16 (x : BitVec 16) : List (BitVec 8) := [x.extractLsb' 8 8, x.extractLsb' 0 8]

def be32 (x : BitVec 32) : List (BitVec 8) :=
  [x.extractLsb' 24 8, x.extractLsb' 16 8, x.extractLsb' 8 8, x.extractLsb' 0 8]

@[simp] theorem length_be16 (x : BitVec 16) : (be16 x).length = 2 := rfl

@[simp] theorem length_be32 (x : BitVec 32) : (be32 x).length = 4 := rfl

/-! ## Writing -/

def new : ByteBuffer := ⟨[], 0, Nat.le_refl 0⟩

/-- A buffer whose position is at its end. -/
def ofBytes (data : List (BitVec 8)) : ByteBuffer := ⟨data, data.length, Nat.le_refl _⟩

def writeBytes (b : ByteBuffer) (bytes : List (BitVec 8)) : ByteBuffer where
  data := b.data.take b.wpos ++ bytes ++ b.data.drop (b.wpos + bytes.length)
  wpos := b.wpos + bytes.length
  wpos_le := by
    have h := b.wpos_le
    rw [List.length_append, List.length_append, List.length_take, List.length_drop]
    omega

def writeU8 (b : ByteBuffer) (x : BitVec 8) : ByteBuffer := b.writeBytes [x]

def writeU16 (b : ByteBuffer) (x : BitVec 16) : ByteBuffer := b.writeBytes (be16 x)

def writeU32 (b : ByteBuffer) (x : BitVec 32) : ByteBuffer := b.writeBytes (be32 x)

def setWpos (b : ByteBuffer) (pos : Nat) : ByteBuffer :=
  ⟨b.data, min pos b.data.length, Nat.min_le_right _ _⟩

theorem new_eq : new = ofBytes [] := rfl

@[simp] theorem ofBytes_data (data : List (BitVec 8)) : (ofBytes data).data = data := rfl

@[simp] theorem ofBytes_wpos (data : List (BitVec 8)) : (ofBytes data).wpos = data.length := rfl

@[ext] theorem ext {b b' : ByteBuffer} (hdata : b.data = b'.data) (hwpos : b.wpos = b'.wpos) :
    b = b' := by
  cases b
  cases b'
  cases hdata
  cases hwpos
  rfl

@[simp] theorem ofBytes_writeBytes (data bytes : List (BitVec 8)) :
    (ofBytes data).writeBytes bytes = ofBytes (data ++ bytes) := by
  apply ByteBuffer.ext
  · show data.take data.length ++ bytes ++ data.drop (data.length + bytes.length) = data ++ bytes
    rw [List.take_length, List.drop_eq_nil_of_le (Nat.le_add_right _ _), List.append_nil]
  · show data.length + bytes.length = (data ++ bytes).length
    rw [List.length_append]

@[simp] theorem ofBytes_writeU8 (data : List (BitVec 8)) (x : BitVec 8) :
    (ofBytes data).writeU8 x = ofBytes (data ++ [x]) := ofBytes_writeBytes data [x]

@[simp] theorem ofBytes_writeU16 (data : List (BitVec 8)) (x : BitVec 16) :
    (ofBytes data).writeU16 x = ofBytes (data ++ be16 x) := ofBytes_writeBytes data (be16 x)

@[simp] theorem ofBytes_writeU32 (data : List (BitVec 8)) (x : BitVec 32) :
    (ofBytes data).writeU32 x = ofBytes (data ++ be32 x) := ofBytes_writeBytes data (be32 x)

/-! ## Going back -/

@[simp] theorem setWpos_data (b : ByteBuffer) (pos : Nat) : (b.setWpos pos).data = b.data := rfl

theorem setWpos_wpos {b : ByteBuffer} {pos : Nat} (h : pos ≤ b.data.length) :
    (b.setWpos pos).wpos = pos := Nat.min_eq_left h

@[simp] theorem length_writeBytes {b : ByteBuffer} {bytes : List (BitVec 8)}
    (h : b.wpos + bytes.length ≤ b.data.length) :
    (b.writeBytes bytes).data.length = b.data.length := by
  have hwpos := b.wpos_le
  show (b.data.take b.wpos ++ bytes ++ b.data.drop (b.wpos + bytes.length)).length = _
  simp only [List.length_append, List.length_take, List.length_drop]
  omega

/-- Up to the end of what was written. -/
theorem setWpos_writeBytes_take {b : ByteBuffer} {pos : Nat} {bytes : List (BitVec 8)}
    (h : pos + bytes.length ≤ b.data.length) :
    ((b.setWpos pos).writeBytes bytes).data.take (pos + bytes.length) =
      b.data.take pos ++ bytes := by
  have hpos : (b.setWpos pos).wpos = pos := setWpos_wpos (by omega)
  show ((b.data.take (b.setWpos pos).wpos ++ bytes) ++ _).take _ = _
  rw [hpos]
  refine List.take_left' ?_
  rw [List.length_append, List.length_take, Nat.min_eq_left (by omega)]

/-- From the end of what was written on. -/
theorem setWpos_writeBytes_drop {b : ByteBuffer} {pos start : Nat} {bytes : List (BitVec 8)}
    (h : pos + bytes.length ≤ start) (hstart : start ≤ b.data.length) :
    ((b.setWpos pos).writeBytes bytes).data.drop start = b.data.drop start := by
  have hpos : (b.setWpos pos).wpos = pos := setWpos_wpos (by omega)
  have hlen : (b.data.take pos ++ bytes).length = pos + bytes.length := by
    rw [List.length_append, List.length_take, Nat.min_eq_left (by omega)]
  show ((b.data.take (b.setWpos pos).wpos ++ bytes) ++
    b.data.drop ((b.setWpos pos).wpos + bytes.length)).drop start = _
  rw [hpos, List.drop_append, hlen, List.drop_drop,
    List.drop_eq_nil_of_le (by omega), List.nil_append]
  congr 1
  omega

/-- Writing inside and coming back to the end. -/
theorem ofBytes_writeInside {data bytes : List (BitVec 8)} {pos : Nat}
    (h : pos + bytes.length ≤ data.length) :
    ∃ data', (((ofBytes data).setWpos pos).writeBytes bytes).setWpos data.length = ofBytes data' ∧
      data'.length = data.length := by
  have hlen : (((ofBytes data).setWpos pos).writeBytes bytes).data.length = data.length := by
    refine length_writeBytes ?_
    rw [setWpos_wpos (show pos ≤ data.length by omega)]
    exact h
  refine ⟨_, ByteBuffer.ext rfl ?_, hlen⟩
  rw [ofBytes_wpos, setWpos_wpos (Nat.le_of_eq hlen.symm), hlen]

/-! ## Reading words -/

def word16 (b : List (BitVec 8)) (i : Nat) : BitVec 16 := b.getD i 0 ++ b.getD (i + 1) 0

def word32 (b : List (BitVec 8)) (i : Nat) : BitVec 32 :=
  b.getD i 0 ++ b.getD (i + 1) 0 ++ b.getD (i + 2) 0 ++ b.getD (i + 3) 0

theorem getD_append_length (xs ys : List (BitVec 8)) (k : Nat) (d : BitVec 8) :
    (xs ++ ys).getD (xs.length + k) d = ys.getD k d := by
  rw [List.getD_append_right _ _ _ _ (Nat.le_add_right _ _), Nat.add_sub_cancel_left]

theorem word16_append_length (xs ys : List (BitVec 8)) (k : Nat) :
    word16 (xs ++ ys) (xs.length + k) = word16 ys k := by
  rw [word16, word16, Nat.add_assoc, getD_append_length, getD_append_length]

theorem word32_append_length (xs ys : List (BitVec 8)) (k : Nat) :
    word32 (xs ++ ys) (xs.length + k) = word32 ys k := by
  have h := fun j => getD_append_length xs ys (k + j) 0
  simp only [← Nat.add_assoc] at h
  have h0 := h 0
  rw [Nat.add_zero, Nat.add_zero] at h0
  rw [word32, word32, h0, h 1, h 2, h 3]

/-- A word is read back from where it stands. -/
theorem word16_be16 (x : BitVec 16) (rest : List (BitVec 8)) : word16 (be16 x ++ rest) 0 = x := by
  show x.extractLsb' 8 8 ++ x.extractLsb' 0 8 = x
  apply BitVec.eq_of_getLsbD_eq
  intro i hi
  simp only [BitVec.getLsbD_append, BitVec.getLsbD_extractLsb']
  grind

theorem word32_be32 (x : BitVec 32) (rest : List (BitVec 8)) : word32 (be32 x ++ rest) 0 = x := by
  show x.extractLsb' 24 8 ++ x.extractLsb' 16 8 ++ x.extractLsb' 8 8 ++ x.extractLsb' 0 8 = x
  apply BitVec.eq_of_getLsbD_eq
  intro i hi
  simp only [BitVec.getLsbD_append, BitVec.getLsbD_extractLsb']
  grind

/-! A word behind others. -/

theorem word16_skip16 (x : BitVec 16) (rest : List (BitVec 8)) (i : Nat) :
    word16 (be16 x ++ rest) (i + 2) = word16 rest i := by
  rw [Nat.add_comm, ← length_be16 x, word16_append_length]

theorem word16_skip32 (x : BitVec 32) (rest : List (BitVec 8)) (i : Nat) :
    word16 (be32 x ++ rest) (i + 4) = word16 rest i := by
  rw [Nat.add_comm, ← length_be32 x, word16_append_length]

theorem word32_skip16 (x : BitVec 16) (rest : List (BitVec 8)) (i : Nat) :
    word32 (be16 x ++ rest) (i + 2) = word32 rest i := by
  rw [Nat.add_comm, ← length_be16 x, word32_append_length]

theorem word32_skip32 (x : BitVec 32) (rest : List (BitVec 8)) (i : Nat) :
    word32 (be32 x ++ rest) (i + 4) = word32 rest i := by
  rw [Nat.add_comm, ← length_be32 x, word32_append_length]

/-- A word behind a prefix of known length. -/
theorem word16_at {pre : List (BitVec 8)} {i : Nat} (hi : pre.length = i) (x : BitVec 16)
    (rest : List (BitVec 8)) : word16 (pre ++ (be16 x ++ rest)) i = x := by
  rw [← hi, ← Nat.add_zero pre.length, word16_append_length, word16_be16]

/-! ## What stands where -/

/-- These bytes stand at position `i`. -/
def StandsAt (data : List (BitVec 8)) (i : Nat) (bytes : List (BitVec 8)) : Prop :=
  bytes <+: data.drop i

/-- From `start` on all of `data` is kept, and maybe more comes behind it. -/
def Grows (start : Nat) (data data' : List (BitVec 8)) : Prop :=
  data.drop start <+: data'.drop start

section StandsAt

variable {data data' bytes : List (BitVec 8)} {i start : Nat}

theorem Grows.of_prefix (start : Nat) (h : data <+: data') : Grows start data data' :=
  List.IsPrefix.drop h start

theorem StandsAt.grows (h : StandsAt data i bytes) (hg : Grows start data data')
    (hi : start ≤ i) : StandsAt data' i bytes := by
  have hdrop := List.IsPrefix.drop hg (i - start)
  rw [List.drop_drop, List.drop_drop, Nat.add_sub_cancel' hi] at hdrop
  exact List.IsPrefix.trans h hdrop

theorem StandsAt.mono (h : StandsAt data i bytes) (hp : data <+: data') :
    StandsAt data' i bytes := h.grows (Grows.of_prefix i hp) (Nat.le_refl i)

/-- What was just written stands at the end of what was there before. -/
theorem standsAt_end (data bytes : List (BitVec 8)) :
    StandsAt (data ++ bytes) data.length bytes := by
  rw [StandsAt, List.drop_left]

theorem StandsAt.take (h : StandsAt data i bytes) :
    (data.drop i).take bytes.length = bytes := by
  obtain ⟨rest, hrest⟩ := h
  rw [← hrest, List.take_left]

/-- Positions counted from the end of a header. -/
theorem StandsAt.drop {k : Nat} (h : StandsAt data i bytes) (hk : k ≤ i) :
    StandsAt (data.drop k) (i - k) bytes := by
  rw [StandsAt, List.drop_drop, Nat.add_sub_cancel' hk]
  exact h

theorem StandsAt.lt_length (h : StandsAt data i bytes) (hbytes : bytes ≠ []) :
    i < data.length := by
  have hlen := List.IsPrefix.length_le h
  have hpos := List.length_pos_iff.mpr hbytes
  rw [List.length_drop] at hlen
  omega

theorem StandsAt.split (h : StandsAt data i bytes) (hbytes : bytes ≠ []) :
    ∃ pre rest, data = pre ++ (bytes ++ rest) ∧ pre.length = i := by
  have hlt := StandsAt.lt_length h hbytes
  obtain ⟨rest, hrest⟩ := h
  refine ⟨data.take i, rest, ?_, ?_⟩
  · rw [hrest, List.take_append_drop]
  · rw [List.length_take, Nat.min_eq_left (Nat.le_of_lt hlt)]

end StandsAt

/-- The words of a list that was written word by word. -/
theorem word16_flatMap {words : List (BitVec 16)} {k : Nat} (hk : k < words.length)
    (rest : List (BitVec 8)) : word16 (words.flatMap be16 ++ rest) (k * 2) = words[k] := by
  induction words generalizing k with
  | nil => cases hk
  | cons w words ih =>
      rw [List.flatMap_cons, List.append_assoc]
      cases k with
      | zero => exact word16_be16 w _
      | succ k =>
          rw [Nat.succ_mul, Nat.add_comm, ← length_be16 w, word16_append_length, length_be16,
            ih (Nat.lt_of_succ_lt_succ hk)]
          rfl

end ByteBuffer
