import Inferno.RingLaw

/-!
# What a read assigns

`read_at` copies slot by slot and reports a range afterwards, from lengths and
positions. Here a read is run on a memory in which every cell holds its own
index, into a slice of `none`: what stands in the slice afterwards is which
cell each index was assigned from, if it was assigned at all.
-/

namespace Inferno

variable {α : Type}

/-- The slot of a timestamp. -/
def RingShared.slotAt (sh : RingShared) (t : Usize) : Nat := t.toNat % sh.itemsSize

theorem RingShared.slotAt_lt (sh : RingShared) (t : Usize) : sh.slotAt t < sh.itemsSize :=
  Nat.mod_lt _ sh.itemsSize_pos

theorem RingShared.slotAt_ofInt (sh : RingShared) (a : Int) :
    sh.slotAt (BitVec.ofInt 64 a) = Serial.slot sh.itemsSize a := by
  obtain ⟨k, hk, hpow⟩ := sh.itemsSize_log
  rw [slotAt, hpow, ← Nat.and_two_pow_sub_one_eq_mod]
  exact Serial.mask_ofInt (by omega) a

/-- The walk of a range of `n` times from `t` on. -/
theorem RingShared.forInRing_add (sh : RingShared) (t : Usize) (n : Nat) :
    forInRing sh.itemsSize t (t + BitVec.ofNat 64 n) =
      (List.range (visits sh.itemsSize (n % 2 ^ 64 : Nat))).map fun j =>
        sh.slotAt (t + BitVec.ofNat 64 j) := by
  have hlt : n % 2 ^ 64 < 2 ^ 64 := Nat.mod_lt _ (by decide)
  have hfin : t + BitVec.ofNat 64 n = BitVec.ofInt 64 (t.toInt + (n % 2 ^ 64 : Nat)) := by
    rw [BitVec.ofInt_add, BitVec.ofInt_toInt, BitVec.ofInt_natCast]
    congr 1
    exact BitVec.eq_of_toNat_eq (by simp)
  have hwalk := @RingShared.forInRing_ofInt sh t.toInt (n % 2 ^ 64 : Nat) (by omega) (by omega)
  rw [BitVec.ofInt_toInt, ← hfin] at hwalk
  rw [hwalk]
  refine List.map_congr_left fun j _ => ?_
  rw [← sh.slotAt_ofInt, ← Serial.ofInt_add_ofNat, BitVec.ofInt_toInt]

namespace RBOutput

/-- The memory with every cell holding its own index. -/
def tagged (m : RingMem α) : RingMem (Option Nat) :=
  { readablePos := m.readablePos, writingPos := m.writingPos, holesCount := m.holesCount
    buffer := some, valid := m.valid, reported := m.reported }

/-- The slice after a copy of `slots` to the indices from `k` on. -/
def copied (sh : RingShared) (m : RingMem α) (slots : List Nat) (out : List α) (k : Nat) :
    List α :=
  (slots.foldl (fun acc i => (acc.1.set acc.2 (m.buffer (i * sh.stride)), acc.2 + 1)) (out, k)).1

theorem readItems_copied (sh : RingShared) (m : RingMem α) {slots : List Nat}
    (hslots : ∀ i ∈ slots, i < sh.itemsSize) {out : List α} {k : Nat}
    (hroom : k + slots.length ≤ out.length) :
    (slots.foldlM (readItem sh) (out, k)).exec ringMem m =
      some ((copied sh m slots out k, k + slots.length), m) := by
  induction slots generalizing out k with
  | nil => rfl
  | cons i slots ih =>
      rw [List.length_cons] at hroom
      have hcell := sh.slot_in_buffer (hslots i List.mem_cons_self)
      have hrest := @ih (fun i hi => hslots i (List.mem_cons_of_mem _ hi))
        (out.set k (m.buffer (i * sh.stride))) (k + 1) (by rw [List.length_set]; omega)
      have hitem : (readItem sh (out, k) i).exec ringMem m =
          some ((out.set k (m.buffer (i * sh.stride)), k + 1), m) := by
        simp only [readItem, RingAct.loadItem, if_pos hcell, Prog.bind_eq, Prog.act_bind,
          Prog.ret_bind, Prog.assert_bind (show k < out.length by omega)]
        rfl
      rw [List.foldlM_cons, Prog.bind_eq, Prog.exec_bind, hitem]
      refine hrest.trans ?_
      rw [List.length_cons, Nat.add_right_comm, Nat.add_assoc]
      rfl

theorem length_copied (sh : RingShared) (m : RingMem α) (slots : List Nat) (out : List α)
    (k : Nat) : (copied sh m slots out k).length = out.length := by
  unfold copied
  induction slots generalizing out k with
  | nil => rfl
  | cons i slots ih => exact (ih _ _).trans List.length_set

/-- Each index of the copy has its cell, and the others are as they were. -/
theorem copied_getElem? (sh : RingShared) (m : RingMem α) {slots : List Nat} {out : List α}
    {k : Nat} (hroom : k + slots.length ≤ out.length) (i : Nat) :
    (copied sh m slots out k)[i]? =
      if k ≤ i ∧ i < k + slots.length then
        slots[i - k]?.map fun slot => m.buffer (slot * sh.stride)
      else out[i]? := by
  unfold copied
  induction slots generalizing out k with
  | nil =>
      rw [if_neg (by simp)]
      rfl
  | cons s slots ih =>
      rw [List.length_cons] at hroom
      have hset : k + 1 + slots.length ≤ (out.set k (m.buffer (s * sh.stride))).length := by
        rw [List.length_set]
        omega
      rw [List.foldl_cons, ih hset, List.length_cons]
      rcases Nat.lt_trichotomy i k with hlt | rfl | hgt
      · rw [if_neg (by omega), if_neg (by omega), List.getElem?_set_ne (by omega)]
      · rw [if_neg (by omega), if_pos (by omega), List.getElem?_set_self (by omega)]
        simp
      · have hsub : i - k = i - (k + 1) + 1 := by omega
        rw [hsub, List.getElem?_cons_succ]
        by_cases hin : i < k + 1 + slots.length
        · rw [if_pos (by omega), if_pos (by omega)]
        · rw [if_neg (by omega), if_neg (by omega), List.getElem?_set_ne (by omega)]

/-! ## The reported range -/

/-- The slice after a read of `len` items from `start` on, in a memory of cell
indices: every index it reports has the cell of its own time. -/
def AssignsUseful (sh : RingShared) (m : RingMem α) (start : Usize) (len : Nat) : Prop :=
  ∃ out r, (readAt sh start (List.replicate len none)).exec ringMem (tagged m) =
      some ((out, r), tagged m) ∧ out.length = len ∧
    ∀ i, r.Useful i →
      out[i]? = some (some (sh.slotAt (start + BitVec.ofNat 64 i) * sh.stride))

theorem usefulRange_value (sh : RingShared) (m : RingMem α) (start : Usize) (n : Nat) :
    (usefulRange sh start n).exec ringMem m =
      some (if sh.unconditionalRead then ⟨0, n⟩ else usefulOf sh (wrapsub m.writingPos start) n,
        m) := by
  unfold usefulRange usefulOf
  by_cases hunc : sh.unconditionalRead = true
  · rw [hunc]
    rfl
  · rw [Bool.not_eq_true] at hunc
    rw [hunc]
    show Prog.exec ringMem
      (if wrapsub m.writingPos start > sh.itemsSize then
          pure (⟨min ((wrapsub m.writingPos start).toNat - sh.itemsSize) n, n⟩ : ReadResult)
        else pure (⟨0, n⟩ : ReadResult)) m = _
    simp only [Bool.false_eq_true, if_false]
    split <;> rfl

/-- A copy of `n` items into a slice with room for them. -/
theorem copyOut_exec (sh : RingShared) {m : RingMem α} (hvalid : m.valid = true) (start : Usize)
    {out : List α} {n : Nat} (hn : n ≤ out.length) :
    (copyOut sh start out n).exec ringMem m =
      some ((copied sh m (forInRing sh.itemsSize start (start + BitVec.ofNat 64 n)) out 0,
        if sh.unconditionalRead then ⟨0, n⟩ else usefulOf sh (wrapsub m.writingPos start) n),
        m) := by
  obtain ⟨hwalk, hslots⟩ := sh.forInRing_copy start n
  have hcopy := @readItems_copied _ sh m _ hslots out 0 (by omega)
  simp only [copyOut, RingAct.lockBuffer, Prog.bind_eq, Prog.act_bind, Prog.ret_bind,
    Prog.exec_act, ringMem, hvalid, if_true, Prog.exec_bind]
  rw [hcopy, Option.bind_some, usefulRange_value]
  rfl

/-- What is in the slice after a copy of `n` items, and what is reported. -/
theorem copyOut_tagged (sh : RingShared) (m : RingMem α) (start : Usize) {len n : Nat}
    (hn : n ≤ len) (hvalid : m.valid = true) :
    ∃ out r, (copyOut sh start (List.replicate len none) n).exec ringMem (tagged m) =
        some ((out, r), tagged m) ∧ out.length = len ∧
      r.usefulEndIndex = n ∧ (sh.unconditionalRead = true → r.usefulStartIndex = 0) ∧
      ∀ i, out[i]? =
        if i < visits sh.itemsSize (n % 2 ^ 64 : Nat) then
          some (some (sh.slotAt (start + BitVec.ofNat 64 i) * sh.stride))
        else (List.replicate len none)[i]? := by
  have hwalk := sh.forInRing_add start n
  have hroom : 0 + (forInRing sh.itemsSize start (start + BitVec.ofNat 64 n)).length ≤
      (List.replicate len (none : Option Nat)).length := by
    have hle := (sh.forInRing_copy start n).1
    rw [List.length_replicate]
    omega
  refine ⟨_, _, copyOut_exec sh (m := tagged m) hvalid start
    (by rw [List.length_replicate]; exact hn), ?_, ?_, fun hunc => ?_, fun i => ?_⟩
  · rw [length_copied, List.length_replicate]
  · unfold usefulOf
    split
    · rfl
    · split <;> rfl
  · rw [if_pos hunc]
  · rw [copied_getElem? sh (tagged m) hroom, hwalk, List.length_map, List.length_range]
    by_cases hi : i < visits sh.itemsSize (n % 2 ^ 64 : Nat)
    · rw [if_pos (by omega), if_pos hi, Nat.sub_zero, List.getElem?_map,
        List.getElem?_range hi]
      rfl
    · rw [if_neg (by omega), if_neg hi]

/-- What the copy reports of a slice of `len` is assigned, as long as the walk
is as long as the range. -/
theorem copyOut_assigns (sh : RingShared) (m : RingMem α) (start : Usize) {len n : Nat}
    (hn : n ≤ len) (hlap : n ≤ sh.itemsSize) (hvalid : m.valid = true) :
    ∃ out r, (copyOut sh start (List.replicate len none) n).exec ringMem (tagged m) =
        some ((out, r), tagged m) ∧ out.length = len ∧
      ∀ i, r.Useful i →
        out[i]? = some (some (sh.slotAt (start + BitVec.ofNat 64 i) * sh.stride)) := by
  obtain ⟨out, r, hexec, hlen, hend, _, hout⟩ := copyOut_tagged sh m start hn hvalid
  refine ⟨out, r, hexec, hlen, fun i hi => ?_⟩
  have hsize := sh.itemsSize_le
  have hvisits := visits_of_le (N := sh.itemsSize) (show (0 : Int) ≤ (n : Nat) by omega) (by omega)
  have hmod : n % 2 ^ 64 = n := Nat.mod_eq_of_lt (by omega)
  have hlt : i < r.usefulEndIndex := hi.2
  rw [hout, if_pos (by rw [hmod]; omega)]

theorem copyOut_invalid (sh : RingShared) {m : RingMem α} (hvalid : m.valid = false)
    (start : Usize) (out : List α) (n : Nat) :
    (copyOut sh start out n).exec ringMem m = some ((out, ⟨0, 0⟩), m) := by
  simp only [copyOut, RingAct.lockBuffer, Prog.bind_eq, Prog.act_bind, Prog.ret_bind,
    Prog.exec_act, ringMem, hvalid]
  rfl

theorem outputLen_value (sh : RingShared) (m : RingMem α) (start : Usize) (len : Nat) :
    (outputLen sh start len).exec ringMem m =
      some (if sh.unconditionalRead then some len
        else copyLen sh (wrapsub m.readablePos start) len, m) := by
  unfold outputLen copyLen
  by_cases hunc : sh.unconditionalRead = true
  · rw [if_pos hunc, if_pos hunc]
    rfl
  · rw [if_neg hunc, if_neg hunc]
    show Prog.exec ringMem
      (if wrapsub m.readablePos start < 0 ∨ wrapsub m.readablePos start > sh.itemsSize then
          pure none
        else pure (some (min len (wrapsub m.readablePos start).toNat))) m = _
    split <;> rfl

/-- The length that is copied, and what a read does with it. -/
theorem readAt_exec (sh : RingShared) (m : RingMem α) (start : Usize) (out : List α) :
    (readAt sh start out).exec ringMem m =
      match if sh.unconditionalRead then some out.length
        else copyLen sh (wrapsub m.readablePos start) out.length with
      | none => some ((out, ⟨0, 0⟩), m)
      | some n => (copyOut sh start out n).exec ringMem m := by
  unfold readAt
  rw [Prog.bind_eq, Prog.exec_bind, outputLen_value, Option.bind_some]
  cases if sh.unconditionalRead then some out.length
    else copyLen sh (wrapsub m.readablePos start) out.length <;> rfl

theorem copyLen_bounds {sh : RingShared} {r : Int} {len n : Nat}
    (h : copyLen sh r len = some n) : n ≤ len ∧ n ≤ sh.itemsSize := by
  unfold copyLen at h
  split at h
  · cases h
  · injection h
    omega

theorem usefulOf_bounds (sh : RingShared) (diff : Int) (n : Nat) :
    (usefulOf sh diff n).usefulStartIndex ≤ n ∧ (usefulOf sh diff n).usefulEndIndex = n := by
  unfold usefulOf
  split
  · exact ⟨Nat.min_le_right _ _, rfl⟩
  · exact ⟨Nat.zero_le _, rfl⟩

/-- A read of any ring comes to its end and stores nothing. -/
theorem readAt_succeeds (sh : RingShared) (m : RingMem α) (start : Usize) (out : List α) :
    ∃ out' r, (readAt sh start out).exec ringMem m = some ((out', r), m) ∧
      out'.length = out.length ∧ r.usefulStartIndex ≤ out.length ∧
      r.usefulEndIndex ≤ out.length := by
  rw [readAt_exec]
  split
  · exact ⟨out, ⟨0, 0⟩, rfl, rfl, Nat.zero_le _, Nat.zero_le _⟩
  · next n hlen =>
      have hn : n ≤ out.length := by
        split at hlen
        · exact Nat.le_of_eq (Option.some.inj hlen).symm
        · exact (copyLen_bounds hlen).1
      cases hvalid : m.valid with
      | false =>
          exact ⟨out, ⟨0, 0⟩, copyOut_invalid sh hvalid start out n, rfl, Nat.zero_le _,
            Nat.zero_le _⟩
      | true =>
          refine ⟨_, _, copyOut_exec sh hvalid start hn, length_copied sh m _ out 0, ?_⟩
          obtain ⟨hstart, hend⟩ := usefulOf_bounds sh (wrapsub m.writingPos start) n
          split
          · exact ⟨Nat.zero_le _, hn⟩
          · exact ⟨hstart.trans hn, (Nat.le_of_eq hend).trans hn⟩

/-- A read reports only what it assigned, unless it reads an external buffer
into a slice of more than a lap: then the walk is a lap at most, while the
range is the slice. -/
theorem read_assigns_iff (sh : RingShared) (m : RingMem α) (start : Usize) (len : Nat) :
    AssignsUseful sh m start len ↔
      (sh.unconditionalRead = false ∨ m.valid = false ∨ len ≤ sh.itemsSize) := by
  unfold AssignsUseful
  rw [readAt_exec, List.length_replicate]
  constructor
  · rintro ⟨out, r, hexec, _, hall⟩
    by_contra hcon
    rw [not_or, not_or, Nat.not_le, Bool.not_eq_false, Bool.not_eq_false] at hcon
    obtain ⟨hunc, hvalid, hlong⟩ := hcon
    obtain ⟨out', r', hexec', _, hend, hstart, hout⟩ :=
      copyOut_tagged sh m start (Nat.le_refl len) hvalid
    rw [if_pos hunc] at hexec
    obtain ⟨⟨rfl, rfl⟩, _⟩ : (out' = out ∧ r' = r) ∧ True := by
      simpa using hexec'.symm.trans hexec
    -- the last index of the slice is reported and lies behind the lap that was copied
    have hlast : r'.Useful (len - 1) := ⟨by rw [hstart hunc]; omega, by omega⟩
    have hvisits := visits_le_lap sh.itemsSize_pos (len % 2 ^ 64 : Nat)
    have hassigned := hall _ hlast
    rw [hout, if_neg (by omega), List.getElem?_replicate, if_pos (by omega)] at hassigned
    cases hassigned
  · intro hcond
    cases hlen : (if sh.unconditionalRead then some len
        else copyLen sh (wrapsub (tagged m).readablePos start) len) with
    | none => exact ⟨_, _, rfl, List.length_replicate, fun i hi => absurd hi.2 (Nat.not_lt_zero i)⟩
    | some n =>
        by_cases hvalid : m.valid = true
        · refine copyOut_assigns sh m start ?_ ?_ hvalid
          · split at hlen
            · exact Nat.le_of_eq (Option.some.inj hlen).symm
            · exact (copyLen_bounds hlen).1
          · split at hlen
            · next hunc =>
                obtain rfl := Option.some.inj hlen
                simpa [hvalid, hunc] using hcond
            · exact (copyLen_bounds hlen).2
        · rw [Bool.not_eq_true] at hvalid
          exact ⟨_, _, copyOut_invalid sh (m := tagged m) hvalid start _ n, List.length_replicate,
            fun i hi => absurd hi.2 (Nat.not_lt_zero i)⟩

/-- An external ring of four items. -/
def externalRing : RingShared where
  bufferLen := 4
  stride := 1
  unconditionalRead := true
  hasPosDest := false
  itemsSize := 4
  itemsSize_eq := rfl
  stride_pos := Nat.one_pos
  isPowerOfTwo := ⟨2, rfl⟩
  itemsSize_le := Nat.le_of_ble_eq_true rfl

theorem externalRing_read :
    ((readAt externalRing 0 (List.replicate 5 none)).exec ringMem
      (tagged (ownedMem 0 : RingMem Int))).map (·.1) =
        some ([some 0, none, none, none, none], ⟨0, 5⟩) := by
  decide

/-- Five items asked of a ring of four: one is assigned, five are reported. -/
theorem short_walk_reported :
    ¬∀ (sh : RingShared) (m : RingMem Int) (start : Usize) (len : Nat),
      AssignsUseful sh m start len := by
  intro h
  obtain ⟨out, r, hexec, _, hall⟩ := h externalRing (ownedMem 0) 0 5
  have hread := externalRing_read
  rw [hexec, Option.map_some, Option.some.injEq, Prod.mk.injEq] at hread
  obtain ⟨rfl, rfl⟩ := hread
  have hlast := hall 4 ⟨Nat.zero_le _, by decide⟩
  cases hlast

/-! ## One sample -/

/-- What a read of one item at `t` returns, if it reports the item. -/
def sampleAt [Inhabited α] (sh : RingShared) (m : RingMem α) (t : Usize) : Option α :=
  match (readAt sh t [default]).exec ringMem m with
  | some ((out, r), _) => if r.usefulStartIndex = 0 ∧ 0 < r.usefulEndIndex then out[0]? else none
  | none => none

/-- The times an owned ring answers for, and what it answers. -/
theorem sampleAt_owned [Inhabited α] {sh : RingShared} (hown : sh.unconditionalRead = false)
    {m : RingMem α} (hvalid : m.valid = true) (t : Usize) :
    sampleAt sh m t =
      if 0 < wrapsub m.readablePos t ∧ wrapsub m.readablePos t ≤ sh.itemsSize ∧
        wrapsub m.writingPos t ≤ sh.itemsSize
      then some (m.buffer (sh.slotAt t * sh.stride)) else none := by
  have hN := sh.itemsSize_pos
  unfold sampleAt
  rw [readAt_exec, hown]
  simp only [Bool.false_eq_true, if_false, List.length_singleton]
  by_cases hin : wrapsub m.readablePos t < 0 ∨ wrapsub m.readablePos t > sh.itemsSize
  · have hlen : copyLen sh (wrapsub m.readablePos t) 1 = none := if_pos hin
    rw [hlen, if_neg (by omega)]
    rfl
  · have hlen : copyLen sh (wrapsub m.readablePos t) 1 =
        some (min 1 (wrapsub m.readablePos t).toNat) := if_neg hin
    rw [hlen]
    dsimp only
    rw [copyOut_exec sh hvalid t (by simp), hown]
    simp only [Bool.false_eq_true, if_false]
    by_cases hpos : 0 < wrapsub m.readablePos t
    · have hone : min 1 (wrapsub m.readablePos t).toNat = 1 := by omega
      have hvisits := visits_of_le (N := sh.itemsSize) (show (0 : Int) ≤ (1 : Nat) by omega) (by omega)
      have hwalk : forInRing sh.itemsSize t (t + BitVec.ofNat 64 1) = [sh.slotAt t] := by
        rw [sh.forInRing_add, Nat.mod_eq_of_lt (by decide),
          show visits sh.itemsSize (1 : Nat) = 1 by omega]
        simp
      rw [hone, hwalk]
      unfold usefulOf
      by_cases hold : wrapsub m.writingPos t > sh.itemsSize
      · rw [if_pos hold]
        dsimp only
        rw [if_neg (by omega), if_neg (by omega)]
      · rw [if_neg hold]
        dsimp only
        rw [if_pos ⟨rfl, Nat.one_pos⟩, if_pos (by omega)]
        rfl
    · have hzero : min 1 (wrapsub m.readablePos t).toNat = 0 := by omega
      rw [hzero, if_neg (show ¬(0 < wrapsub m.readablePos t ∧ _) by omega)]
      unfold usefulOf
      split <;> simp

end RBOutput

end Inferno
