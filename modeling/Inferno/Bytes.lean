import Inferno.Lib.ByteBuffer
import Inferno.FlowsAnswers
import Mathlib.Data.List.TakeWhile

/-!
# Strings in packets

The writers of `util/bytes.rs` and what its reader makes of what they wrote.
A string is written as its UTF-8 bytes and a zero; a string without NUL has no
other zero, so that the reader finds its end (`read0term_at`). Of any bytes the
reader reads what stands before the first zero, as long as there is one; without
one it reads to the end from the start of the buffer only
(`readsExactly_iff_terminated`).
-/

namespace Inferno

open ByteBuffer

/-- `as_bytes`. -/
def utf8 (s : String) : List Byte := s.toByteArray.data.toList.map UInt8.toBitVec

/-- `write_0term_str_to_bytebuffer`; `none` is an offset that is no `u16`. -/
def write0termStr (b : ByteBuffer) (s : String) : Option (ByteBuffer × BitVec 16) :=
  if b.wpos < 2 ^ 16 then
    some ((b.writeBytes (utf8 s)).writeU8 0, BitVec.ofNat 16 b.wpos)
  else none

/-- `write_0term_str_or_0_to_bytebuffer`. -/
def write0termStrOr0 (b : ByteBuffer) : Option String → Option (ByteBuffer × BitVec 16)
  | some s => write0termStr b s
  | none => some (b, 0)

/-- Writes zeros until the position, counted from `start`, is aligned, so many
at most. -/
def padLoop (start alignment : Nat) : Nat → ByteBuffer → ByteBuffer
  | 0, b => b
  | fuel + 1, b =>
      if (b.wpos + start) % alignment ≠ 0 then padLoop start alignment fuel (b.writeU8 0) else b

/-- `align_wpos`; `alignment` zeros are enough (`padLoop_aligned`). -/
def alignWpos (b : ByteBuffer) (alignment : Nat) : ByteBuffer := padLoop 0 alignment alignment b

/-! ## UTF-8 -/

theorem fromUtf8_utf8 (s : String) : fromUtf8 (utf8 s) = some s := by
  have hbytes : (utf8 s).map UInt8.ofBitVec = s.toByteArray.data.toList := by
    rw [utf8, List.map_map]
    exact List.map_id _
  rw [fromUtf8, hbytes, Array.toArray_toList, String.fromUTF8?, dif_pos s.isValidUTF8]
  rfl

/-- Only NUL has a zero byte. -/
theorem zero_mem_utf8EncodeChar {c : Char} (h : (0 : UInt8) ∈ String.utf8EncodeChar c) :
    c = '\x00' := by
  have hbyte : ∀ n, n < 256 → (0 : UInt8) = UInt8.ofNat n → n = 0 := by
    intro n hn h0
    have hnat := congrArg UInt8.toNat h0
    rw [UInt8.toNat_ofNat', Nat.mod_eq_of_lt (by exact hn)] at hnat
    exact hnat.symm
  unfold String.utf8EncodeChar at h
  dsimp only at h
  split at h
  · next hle =>
      have hval := hbyte _ (by omega) (List.mem_singleton.mp h)
      exact Char.ext (UInt32.toNat_inj.mp hval)
  -- every byte of a longer encoding has its top bit set
  split at h
  · rcases List.mem_cons.mp h with h | h
    · exact absurd (hbyte _ (by omega) h) (by omega)
    · exact absurd (hbyte _ (by omega) (List.mem_singleton.mp h)) (by omega)
  split at h
  · rcases List.mem_cons.mp h with h | h
    · exact absurd (hbyte _ (by omega) h) (by omega)
    rcases List.mem_cons.mp h with h | h
    · exact absurd (hbyte _ (by omega) h) (by omega)
    · exact absurd (hbyte _ (by omega) (List.mem_singleton.mp h)) (by omega)
  · rcases List.mem_cons.mp h with h | h
    · exact absurd (hbyte _ (by omega) h) (by omega)
    rcases List.mem_cons.mp h with h | h
    · exact absurd (hbyte _ (by omega) h) (by omega)
    rcases List.mem_cons.mp h with h | h
    · exact absurd (hbyte _ (by omega) h) (by omega)
    · exact absurd (hbyte _ (by omega) (List.mem_singleton.mp h)) (by omega)

theorem zero_not_mem_utf8 {s : String} (h : ∀ c ∈ s.toList, c ≠ '\x00') : 0 ∉ utf8 s := by
  intro hzero
  obtain ⟨b, hb, hb0⟩ := List.mem_map.mp hzero
  obtain rfl : b = 0 := UInt8.toBitVec_inj.mp hb0
  rw [← String.utf8Encode_toList, List.utf8Encode, List.data_toByteArray] at hb
  obtain ⟨c, hc, hbc⟩ := List.mem_flatMap.mp hb
  exact h c hc (zero_mem_utf8EncodeChar hbc)

/-! ## Reading any bytes -/

theorem fromUtf8_eq_some_iff {b : List Byte} {s : String} : fromUtf8 b = some s ↔ utf8 s = b := by
  constructor
  · intro h
    rw [fromUtf8, String.fromUTF8?] at h
    split at h
    · next hvalid =>
        rw [← Option.some.inj h]
        simp only [utf8, String.fromUTF8, List.map_map]
        exact List.map_id _
    · cases h
  · rintro rfl
    exact fromUtf8_utf8 s

/-- The bytes from the offset up to the first zero, or up to the end. -/
def upToZero (buffer : List Byte) (offset : Nat) : List Byte :=
  (buffer.drop offset).takeWhile (· ≠ 0)

/-- Before the first zero. -/
theorem takeWhile_of_findIdx {xs : List Byte} {x : Nat} (h : xs.findIdx? (· = 0) = some x) :
    xs.take x = xs.takeWhile (· ≠ 0) := by
  rcases List.findIdx?_eq_some_iff_findIdx_eq.mp h with ⟨_, hx⟩
  rw [List.takeWhile_eq_take_findIdx_not, ← hx]
  simp

/-- Where a string has an end, it is read up to there. -/
theorem read0term_of_terminated {buffer : List Byte} {offset : Nat}
    (h : Terminated buffer offset) :
    read0termStrFromBuffer buffer offset =
      some (if offset < buffer.length then fromUtf8 (upToZero buffer offset) else none) := by
  unfold read0termStrFromBuffer upToZero
  by_cases hlt : offset < buffer.length
  · rw [if_neg (Nat.not_le.mpr hlt), if_pos hlt]
    dsimp only
    cases hfind : (buffer.drop offset).findIdx? (· = 0) with
    | some x =>
        have hx := (List.findIdx?_eq_some_iff_getElem.mp hfind).1
        dsimp only
        rw [if_pos hx.le, takeWhile_of_findIdx hfind]
    | none =>
        have hnot : (0 : Byte) ∉ buffer.drop offset := by
          intro hmem
          simpa using List.findIdx?_eq_none_iff.mp hfind 0 hmem
        -- what has no zero is read from the start, where the two lengths agree
        rcases h with rfl | hge | hmem
        · have hall : (buffer.drop 0).takeWhile (· ≠ 0) = buffer.drop 0 := by
            rw [List.takeWhile_eq_self_iff]
            intro b hb
            have hne : b ≠ 0 := by
              rintro rfl
              exact hnot hb
            simpa using hne
          rw [hall]
          simp
        · omega
        · exact absurd hmem hnot
  · rw [if_pos (Nat.not_lt.mp hlt), if_neg hlt]

/-- The reader does not panic, and reads the string that is there, if one is. -/
def ReadsExactly (buffer : List Byte) (offset : Nat) : Prop :=
  ∃ r, read0termStrFromBuffer buffer offset = some r ∧
    ∀ s, r = some s ↔ offset < buffer.length ∧ utf8 s = upToZero buffer offset

/-- It reads exactly where the string has an end, or where nothing stands before
the string. -/
theorem readsExactly_iff_terminated (buffer : List Byte) (offset : Nat) :
    ReadsExactly buffer offset ↔ Terminated buffer offset := by
  constructor
  · rintro ⟨r, hread, _⟩
    by_contra hnot
    rw [(read0term_none_iff buffer offset).mpr hnot] at hread
    cases hread
  · intro h
    refine ⟨_, read0term_of_terminated h, fun s => ?_⟩
    by_cases hlt : offset < buffer.length
    · simp [hlt, fromUtf8_eq_some_iff]
    · simp [hlt]

/-- `hi` without a zero, from its second byte on. -/
theorem unterminated_not_read : ¬ReadsExactly [104, 105] 1 := by
  rintro ⟨r, hread, _⟩
  cases hread

/-! ## Reading back -/

/-- A string that was written is read back from where it stands. -/
theorem read0term_at {pre : List Byte} {offset : Nat} (hoffset : pre.length = offset) {s : String}
    (hs : ∀ c ∈ s.toList, c ≠ '\x00') (rest : List Byte) :
    read0termStrFromBuffer (pre ++ (utf8 s ++ 0 :: rest)) offset = some (some s) := by
  have hlt : offset < (pre ++ (utf8 s ++ 0 :: rest)).length := by
    rw [List.length_append, List.length_append, List.length_cons]
    omega
  have hdrop : (pre ++ (utf8 s ++ 0 :: rest)).drop offset = utf8 s ++ 0 :: rest := by
    rw [← hoffset, List.drop_left]
  have hend : Terminated (pre ++ (utf8 s ++ 0 :: rest)) offset := by
    refine Or.inr (Or.inr ?_)
    rw [hdrop]
    exact List.mem_append_right _ List.mem_cons_self
  have hstring : upToZero (pre ++ (utf8 s ++ 0 :: rest)) offset = utf8 s := by
    rw [upToZero, hdrop, List.takeWhile_append_of_pos]
    · simp
    · intro b hb
      have hne : b ≠ 0 := by
        rintro rfl
        exact zero_not_mem_utf8 hs hb
      simpa using hne
  rw [read0term_of_terminated hend, if_pos hlt, hstring, fromUtf8_utf8]

/-! ## Alignment -/

theorem padLoop_ofBytes {start alignment fuel : Nat} {data : List Byte}
    (h : ∃ j ≤ fuel, (data.length + start + j) % alignment = 0) :
    ∃ k ≤ fuel, padLoop start alignment fuel (ofBytes data) =
        ofBytes (data ++ List.replicate k 0) ∧
      (data.length + start + k) % alignment = 0 := by
  induction fuel generalizing data with
  | zero =>
      obtain ⟨j, hj, hmod⟩ := h
      obtain rfl := Nat.le_zero.mp hj
      exact ⟨0, Nat.le_refl 0, by rw [padLoop, List.replicate_zero, List.append_nil], hmod⟩
  | succ fuel ih =>
      rw [padLoop, ofBytes_wpos]
      by_cases haligned : (data.length + start) % alignment = 0
      · rw [if_neg (not_not_intro haligned)]
        exact ⟨0, Nat.zero_le _, by rw [List.replicate_zero, List.append_nil], haligned⟩
      · rw [if_pos haligned, ofBytes_writeU8]
        obtain ⟨j, hj, hmod⟩ := h
        cases j with
        | zero => exact absurd hmod haligned
        | succ j =>
            have hlen : (data ++ [(0 : Byte)]).length + start = data.length + start + 1 := by
              rw [List.length_append, List.length_singleton, Nat.add_right_comm]
            obtain ⟨k, hk, hrun, hkmod⟩ := @ih (data ++ [0])
              ⟨j, Nat.le_of_succ_le_succ hj, by rw [hlen, Nat.add_assoc, Nat.add_comm 1 j, hmod]⟩
            refine ⟨k + 1, Nat.succ_le_succ hk, ?_, ?_⟩
            · rw [hrun, List.append_assoc]
              rfl
            · rw [← hkmod, hlen, Nat.add_assoc _ 1 k, Nat.add_comm 1 k]

/-- So many zeros as the alignment are enough. -/
theorem padLoop_aligned (start : Nat) {alignment : Nat} (ha : 0 < alignment) (data : List Byte) :
    ∃ k ≤ alignment, padLoop start alignment alignment (ofBytes data) =
        ofBytes (data ++ List.replicate k 0) ∧
      (data.length + start + k) % alignment = 0 := by
  refine padLoop_ofBytes ⟨alignment - (data.length + start) % alignment, Nat.sub_le _ _, ?_⟩
  have hlt := Nat.mod_lt (data.length + start) ha
  have hdiv := Nat.div_add_mod (data.length + start) alignment
  have hsum : data.length + start + (alignment - (data.length + start) % alignment) =
      alignment * ((data.length + start) / alignment + 1) := by
    rw [Nat.mul_add, Nat.mul_one]
    omega
  rw [hsum, Nat.mul_mod_right]

end Inferno
