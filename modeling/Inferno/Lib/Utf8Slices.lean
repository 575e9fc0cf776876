import Mathlib.Data.String.Basic

/-!
# Strings cut by bytes

The size of a string in bytes and in characters, and the part of it up to a
position in bytes. There is such a part only where a character ends
(`sliceTo_isSome_iff`).
-/

namespace Utf8Slices

open String

theorem length_le_utf8Len (cs : List Char) : cs.length ≤ utf8Len cs := by
  induction cs with
  | nil => simp
  | cons c cs ih =>
      have hpos := Char.utf8Size_pos c
      simp only [List.length_cons, utf8Len_cons]
      omega

theorem utf8Len_toList (s : String) : utf8Len s.toList = s.utf8ByteSize := by
  rw [← utf8ByteSize_ofList, ofList_toList]

theorem utf8Len_ascii {cs : List Char} (h : ∀ c ∈ cs, c.utf8Size = 1) :
    utf8Len cs = cs.length := by
  induction cs with
  | nil => rfl
  | cons c cs ih =>
      rw [utf8Len_cons, h c List.mem_cons_self, ih fun c' hc' => h c' (List.mem_cons_of_mem _ hc')]
      rfl

/-- The first characters, of so many bytes. -/
def takeBytes : Nat → List Char → Option (List Char)
  | 0, _ => some []
  | _ + 1, [] => none
  | n + 1, c :: cs =>
      if c.utf8Size ≤ n + 1 then (takeBytes (n + 1 - c.utf8Size) cs).map (c :: ·) else none
termination_by structural _ cs => cs

/-- `&s[..n]`; `none` is a panic. -/
def sliceTo (n : Nat) (s : String) : Option String := (takeBytes n s.toList).map ofList

/-- A character ends at the position. -/
def CharBoundary (n : Nat) (s : String) : Prop := ∃ k, utf8Len (s.toList.take k) = n

theorem takeBytes_eq_some {n : Nat} {cs taken : List Char} (h : takeBytes n cs = some taken) :
    utf8Len taken = n ∧ taken <+: cs := by
  induction cs generalizing n taken with
  | nil =>
      cases n with
      | zero =>
          cases h
          exact ⟨rfl, List.prefix_rfl⟩
      | succ n => cases h
  | cons c cs ih =>
      cases n with
      | zero =>
          cases h
          exact ⟨rfl, List.nil_prefix⟩
      | succ n =>
          rw [takeBytes] at h
          split at h
          next hfits =>
            rcases Option.map_eq_some_iff.mp h with ⟨rest, hrest, rfl⟩
            rcases ih hrest with ⟨hlen, hprefix⟩
            refine ⟨?_, List.cons_prefix_cons.mpr ⟨rfl, hprefix⟩⟩
            rw [utf8Len_cons, hlen]
            omega
          next => cases h

/-- Characters can be taken up to a boundary. -/
theorem takeBytes_utf8Len_take (k : Nat) (cs : List Char) :
    (takeBytes (utf8Len (cs.take k)) cs).isSome := by
  induction cs generalizing k with
  | nil => simp [takeBytes]
  | cons c cs ih =>
      cases k with
      | zero => simp [takeBytes]
      | succ k =>
          have hpos := Char.utf8Size_pos c
          rw [List.take_succ_cons, utf8Len_cons]
          rcases Nat.exists_eq_add_of_lt (Nat.add_pos_right (utf8Len (cs.take k)) hpos) with ⟨m, hm⟩
          rw [Nat.zero_add] at hm
          rw [hm, takeBytes, if_pos (by omega), Option.isSome_map,
            show m + 1 - c.utf8Size = utf8Len (cs.take k) by omega]
          exact ih k

theorem sliceTo_isSome_iff {n : Nat} {s : String} : (sliceTo n s).isSome ↔ CharBoundary n s := by
  rw [sliceTo, Option.isSome_map]
  constructor
  · intro h
    rcases Option.isSome_iff_exists.mp h with ⟨taken, htaken⟩
    rcases takeBytes_eq_some htaken with ⟨hlen, hprefix⟩
    refine ⟨taken.length, ?_⟩
    rw [← List.prefix_iff_eq_take.mp hprefix, hlen]
  · rintro ⟨k, rfl⟩
    exact takeBytes_utf8Len_take k s.toList

theorem sliceTo_size {n : Nat} {s part : String} (h : sliceTo n s = some part) :
    part.utf8ByteSize = n := by
  rcases Option.map_eq_some_iff.mp h with ⟨taken, htaken, rfl⟩
  rw [utf8ByteSize_ofList]
  exact (takeBytes_eq_some htaken).1

/-- A string of at most so many bytes, whole or cut. -/
def limited (n : Nat) (s : String) : Option String :=
  if s.utf8ByteSize > n then sliceTo n s else some s

theorem limited_isSome_iff {n : Nat} {s : String} :
    (limited n s).isSome ↔ s.utf8ByteSize ≤ n ∨ CharBoundary n s := by
  unfold limited
  split
  next h => rw [sliceTo_isSome_iff, or_iff_right (Nat.not_le.mpr h)]
  next h => exact iff_of_true rfl (.inl (Nat.not_lt.mp h))

theorem limited_size {n : Nat} {s part : String} (h : limited n s = some part) :
    part.utf8ByteSize ≤ n := by
  unfold limited at h
  split at h
  · exact (sliceTo_size h).le
  next hshort =>
    cases h
    exact Nat.not_lt.mp hshort

end Utf8Slices
