import Inferno.RingExec

/-!
# Where the positions go

Positions wrap, so they are written as offsets from a base: as long as the
offsets of two positions are less than `2^63` apart, the code compares them
as integers. A write takes the readable position from `r` to `readableAfter`,
between the forced close and the new writing position; a close takes it to
the later of the two, or both to its end.
-/

namespace Inferno

variable {α : Type}

/-! ## Offsets -/

/-- The position `a` after `b`. -/
def offset (b : Usize) (a : Int) : Usize := b + BitVec.ofInt 64 a

theorem offset_add (b : Usize) (a c : Int) : offset (offset b a) c = offset b (a + c) := by
  rw [offset, offset, offset, BitVec.ofInt_add, BitVec.add_assoc]

@[simp] theorem offset_zero (b : Usize) : offset b 0 = b := by
  simp [offset]

theorem add_ofNat (b : Usize) (n : Nat) : b + BitVec.ofNat 64 n = offset b n := by
  rw [offset, BitVec.ofInt_natCast]

theorem offset_add_ofNat (b : Usize) (a : Int) (n : Nat) :
    offset b a + BitVec.ofNat 64 n = offset b (a + n) := by
  rw [add_ofNat, offset_add]

theorem offset_sub (b : Usize) (a : Int) (h : Usize) : offset b a - h = offset b (a - h.toNat) := by
  rw [offset, offset, ← Serial.ofInt_sub, BitVec.ofInt_natCast, BitVec.ofNat_toNat,
    BitVec.setWidth_eq]
  exact add_sub_assoc _ _ _

/-- Positions come round after `2 ^ 64`. -/
theorem offset_sub_lap (b : Usize) (a : Int) : offset b (a - 2 ^ 64) = offset b a := by
  rw [offset, offset]
  congr 1
  exact BitVec.eq_of_toNat_eq (by simp only [BitVec.toNat_ofInt]; omega)

theorem wrapsub_offset (b : Usize) {a c : Int} (h : FitsIsize (a - c)) :
    wrapsub (offset b a) (offset b c) = a - c := by
  have hsub : offset b a - offset b c = BitVec.ofInt 64 a - BitVec.ofInt 64 c :=
    add_sub_add_left_eq_sub _ _ _
  have hfit := wrapsub_ofInt h
  rw [wrapsub, Serial.sdiff, hsub]
  exact hfit

theorem offset_wrapsub (a b : Usize) : offset b (wrapsub a b) = a := by
  rw [offset, ofInt_wrapsub]
  exact add_sub_cancel b a

theorem wrapsub_add_ofNat {a b : Usize} {n : Nat} (h : wrapsub a b + n < 2 ^ 63) :
    wrapsub (a + BitVec.ofNat 64 n) b = wrapsub a b + n := by
  have hlow := (fitsIsize_wrapsub a b).1
  have ha : a + BitVec.ofNat 64 n = offset b (wrapsub a b + n) := by
    rw [← offset_add_ofNat, offset_wrapsub]
  have hsub := wrapsub_offset b (a := wrapsub a b + n) (c := 0) ⟨by omega, by omega⟩
  rw [offset_zero, ← ha] at hsub
  omega

theorem slotAt_offset (sh : RingShared) (b : Usize) (a : Int) :
    sh.slotAt (offset b a) = Serial.slot sh.itemsSize (b.toInt + a) := by
  rw [← sh.slotAt_ofInt, BitVec.ofInt_add, BitVec.ofInt_toInt, offset]

/-! ## The pieces of a call -/

namespace RBInput

variable (sh : RingShared) (inp : RBInput)

theorem endAt_offset (b : Usize) {w e : Int} (h : FitsIsize (e - w)) :
    endAt (offset b w) (offset b e) = offset b (max w e) := by
  unfold endAt
  rw [wrapsub_offset b h]
  by_cases hlt : e - w > 0
  · rw [if_pos hlt, max_eq_right (by omega)]
  · rw [if_neg hlt, max_eq_left (by omega)]

theorem closedHoles_readablePos [Inhabited α] (c : Usize) (m : RingMem α) :
    (closedHoles sh inp c m).readablePos = endAt m.readablePos c := by
  unfold closedHoles endAt
  split <;> rfl

@[simp] theorem closedHoles_writingPos [Inhabited α] (c : Usize) (m : RingMem α) :
    (closedHoles sh inp c m).writingPos = m.writingPos := by
  unfold closedHoles
  split <;> rfl

@[simp] theorem closedHoles_valid [Inhabited α] (c : Usize) (m : RingMem α) :
    (closedHoles sh inp c m).valid = m.valid := by
  unfold closedHoles
  split <;> rfl

@[simp] theorem committedMem_readablePos (m : RingMem α) :
    (committedMem sh m).readablePos = m.readablePos := rfl

@[simp] theorem committedMem_writingPos (m : RingMem α) :
    (committedMem sh m).writingPos = m.writingPos := rfl

/-- The slots the scan from `r` up to `e` looks at. -/
def scanSlots (b : Usize) (r e : Int) : List Nat :=
  sh.walk (offset b r) (visits sh.itemsSize (e - r))

theorem scannedTo_offset (b : Usize) {r e : Int} (h0 : r ≤ e) (h : FitsIsize (e - r)) :
    scannedTo sh inp (offset b r) (offset b e) =
      offset b (r + inp.readyRun (scanSlots sh b r e)) := by
  have hsub := wrapsub_offset b h
  unfold scannedTo scanSlots
  rw [hsub]
  by_cases hlt : e - r > 0
  · rw [if_pos hlt, sh.forInRing_wrapsub (by omega), hsub, offset_add_ofNat]
  · have hz : e - r = 0 := by omega
    rw [if_neg hlt, hz]
    simp [visits, RingShared.walk, readyRun]

theorem scannedTo_back (b : Usize) {r e : Int} (hle : e ≤ r) (h : FitsIsize (e - r)) :
    scannedTo sh inp (offset b r) (offset b e) = offset b r := by
  unfold scannedTo
  rw [wrapsub_offset b h, if_neg (by omega)]

theorem readyRun_scanSlots_le (b : Usize) {r e : Int} (h0 : r ≤ e) :
    (inp.readyRun (scanSlots sh b r e) : Int) ≤ e - r := by
  have hrun := readyRun_le inp (scanSlots sh b r e)
  have hvisits := visits_le sh.itemsSize_pos (show 0 ≤ e - r by omega)
  have hlen : (scanSlots sh b r e).length = visits sh.itemsSize (e - r) := sh.length_walk _ _
  omega

/-- Where the readable position goes when it is published. -/
def readableAfter (hole : Bool) (b : Usize) (r w : Int) : Int :=
  if hole then
    max r (w - inp.holeFixWait.toNat) +
      inp.readyRun (scanSlots sh b (max r (w - inp.holeFixWait.toNat)) w)
  else w

theorem readableAfter_bounds (hole : Bool) (b : Usize) {r w : Int} (hle : r ≤ w) :
    r ≤ readableAfter sh inp hole b r w ∧ readableAfter sh inp hole b r w ≤ w ∧
      w - readableAfter sh inp hole b r w ≤ inp.holeFixWait.toNat := by
  cases hole with
  | false =>
      simp only [readableAfter, Bool.false_eq_true, if_false]
      omega
  | true =>
      have hrun := readyRun_scanSlots_le sh inp b
        (show max r (w - inp.holeFixWait.toNat) ≤ w by omega)
      simp only [readableAfter, if_true]
      omega

theorem publishedMem_readablePos [Inhabited α] (hole : Bool) {m : RingMem α} {b : Usize}
    {r w : Int} (hr : m.readablePos = offset b r) (hw : m.writingPos = offset b w) (hle : r ≤ w)
    (hfit : w - r - inp.holeFixWait.toNat < 2 ^ 63) (hwait : inp.holeFixWait.toNat < 2 ^ 63) :
    (publishedMem sh inp hole m).readablePos =
      offset b (readableAfter sh inp hole b r w) := by
  cases hole with
  | false => exact hw
  | true =>
      have hclose : endAt m.readablePos (m.writingPos - inp.holeFixWait) =
          offset b (max r (w - inp.holeFixWait.toNat)) := by
        rw [hr, hw, offset_sub, endAt_offset b ⟨by omega, by omega⟩]
      simp only [publishedMem, readableAfter, if_true, closedHoles_readablePos]
      rw [hclose, hw, scannedTo_offset sh inp b (by omega) ⟨by omega, by omega⟩]

@[simp] theorem publishedMem_writingPos [Inhabited α] (hole : Bool) (m : RingMem α) :
    (publishedMem sh inp hole m).writingPos = m.writingPos := by
  cases hole <;> simp [publishedMem]

/-! ## The calls -/

theorem markedHole_holeFixWait (w ts : Usize) :
    (markedHole sh inp w ts).holeFixWait = inp.holeFixWait := by
  unfold markedHole
  split
  · exact foldl_clear_holeFixWait _ _
  · rfl

theorem readied_holeFixWait (slots : List Nat) :
    (readied slots inp).holeFixWait = inp.holeFixWait := by
  unfold readied
  induction slots generalizing inp with
  | nil => rfl
  | cons i slots ih => exact ih _

theorem storedInput_holeFixWait (ts : Usize) (xs : List α) (m : RingMem α) :
    (storedInput sh inp ts xs m).holeFixWait = inp.holeFixWait := by
  unfold storedInput
  split
  · rw [readied_holeFixWait, markedHole_holeFixWait]
  · exact markedHole_holeFixWait sh inp _ _

theorem wrote_writingPos [Inhabited α] (ts : Usize) (xs : List α) (m : RingMem α) :
    (wrote sh inp ts xs m).2.writingPos =
      endAt m.writingPos (ts + BitVec.ofNat 64 xs.length) := by
  rw [wrote, committedMem_writingPos, publishedMem_writingPos]
  rfl

/-- The positions after a write: `e` is where the packet ends. -/
theorem wrote_positions [Inhabited α] {ts : Usize} {xs : List α} {m : RingMem α} {b : Usize}
    {r e : Int} (hr : m.readablePos = offset b r)
    (he : endAt m.writingPos (ts + BitVec.ofNat 64 xs.length) = offset b e) (hle : r ≤ e)
    (hfit : e - r - inp.holeFixWait.toNat < 2 ^ 63)
    (hwait : inp.holeFixWait.toNat < 2 ^ 63) :
    (wrote sh inp ts xs m).2.writingPos = offset b e ∧
      (wrote sh inp ts xs m).2.readablePos =
        offset b (readableAfter sh (storedInput sh inp ts xs m) (findsHole ts m) b r e) := by
  have hin := storedInput_holeFixWait sh inp ts xs m
  refine ⟨?_, ?_⟩
  · rw [wrote_writingPos]
    exact he
  · rw [wrote, committedMem_readablePos]
    exact publishedMem_readablePos sh _ _ hr he (by omega) (by rw [hin]; exact hfit)
      (by rw [hin]; exact hwait)

theorem filledMem_positions [Inhabited α] (untilPos need : Usize) (m : RingMem α) :
    (filledMem sh untilPos need m).writingPos =
        (if need != untilPos then need else m.writingPos) ∧
      (filledMem sh untilPos need m).readablePos =
        if need != untilPos then need else m.readablePos := by
  unfold filledMem
  split <;> exact ⟨rfl, rfl⟩

/-- The positions after a close up to `u`. -/
theorem closedMem_positions [Inhabited α] {m : RingMem α} {b : Usize} {r w u : Int}
    (hr : m.readablePos = offset b r) (hw : m.writingPos = offset b w) (hle : r ≤ w)
    (hu : FitsIsize (u - w)) (hfit : w - r < 2 ^ 63) :
    (closedMem sh inp (offset b u) m).writingPos = offset b (max w u) ∧
      (closedMem sh inp (offset b u) m).readablePos = offset b (max r u) := by
  obtain ⟨hlow, hhigh⟩ := hu
  have hend : closeEnd m.writingPos (offset b u) = offset b (min w u) := by
    unfold closeEnd
    rw [hw, wrapsub_offset b ⟨hlow, hhigh⟩]
    by_cases hlt : u - w > 0
    · rw [if_pos hlt, min_eq_left (by omega)]
    · rw [if_neg hlt, min_eq_right (by omega)]
  have hclose : endAt m.readablePos (offset b (min w u)) = offset b (max r (min w u)) := by
    rw [hr, endAt_offset b ⟨by omega, by omega⟩]
  have hscan : scannedTo sh inp (offset b (max r (min w u))) (offset b (min w u)) =
      offset b (max r (min w u)) :=
    scannedTo_back sh inp b (by omega) ⟨by omega, by omega⟩
  obtain ⟨hwpos, hrpos⟩ := filledMem_positions sh (offset b (min w u)) (offset b u)
    { closedHoles sh inp (offset b (min w u)) m with
      readablePos := scannedTo sh inp
        (closedHoles sh inp (offset b (min w u)) m).readablePos (offset b (min w u)) }
  rw [closedMem, hend, committedMem_writingPos, committedMem_readablePos, hwpos, hrpos]
  simp only [closedHoles_writingPos, closedHoles_readablePos]
  rw [hclose, hscan, hw]
  by_cases hlt : w < u
  · have hne : (offset b u != offset b (min w u)) = true := by
      rw [bne_iff_ne, min_eq_left (by omega)]
      intro hcon
      have hsub := wrapsub_offset b (a := u) (c := w) ⟨hlow, hhigh⟩
      rw [hcon, wrapsub_self] at hsub
      omega
    rw [if_pos hne, if_pos hne, max_eq_right (by omega), max_eq_right (by omega)]
    exact ⟨rfl, rfl⟩
  · rw [min_eq_right (by omega), bne_self_eq_false, if_neg (by decide), if_neg (by decide),
      max_eq_left (by omega)]
    exact ⟨rfl, rfl⟩

end RBInput

/-! ## The order of the positions -/

/-- The readable position is behind the writing position, by no more than
`hole_fix_wait`. -/
structure Ordered (s : RingState α) : Prop where
  behind : 0 ≤ wrapsub s.2.writingPos s.2.readablePos
  wait : wrapsub s.2.writingPos s.2.readablePos ≤ s.1.holeFixWait.toNat

theorem ordered_newOwned [Inhabited α] (startTime holeFixWait : Usize) :
    Ordered (newOwned startTime holeFixWait : RingState α) := by
  exact ⟨by simp [newOwned, ownedMem], by simp [newOwned, ownedMem]⟩

/-- How far a call moves the two positions: the writing position by `fwd`, the
readable position to `r` after where it was. -/
structure Moves (s s' : RingState α) (fwd r : Int) : Prop where
  writing : s'.2.writingPos = offset s.2.writingPos fwd
  reading : s'.2.readablePos = offset s.2.readablePos r
  fwd_nonneg : 0 ≤ fwd
  read_nonneg : 0 ≤ r
  behind : r ≤ wrapsub s.2.writingPos s.2.readablePos + fwd
  wait : wrapsub s.2.writingPos s.2.readablePos + fwd - r ≤ s'.1.holeFixWait.toNat

namespace RingCall

variable [Inhabited α] (sh : RingShared) {s : RingState α}

/-- How far a call moves the writing position. -/
def forward (s : RingState α) : RingCall α → Int
  | write ts xs => max 0 (wrapsub (ts + BitVec.ofNat 64 xs.length) s.2.writingPos)
  | close u => max 0 (wrapsub u s.2.writingPos)

theorem after_holeFixWait (c : RingCall α) (s : RingState α) :
    (c.after sh s).1.holeFixWait = s.1.holeFixWait := by
  cases c with
  | write ts xs => exact RBInput.storedInput_holeFixWait sh s.1 ts xs s.2
  | close u => rfl

/-- The step lemma of the positions, whatever the call. -/
theorem after_moves (ho : Ordered s) (hwait : s.1.holeFixWait.toNat < 2 ^ 63) (c : RingCall α) :
    ∃ r, Moves s (c.after sh s) (c.forward s) r := by
  obtain ⟨hbehind, hlag⟩ := ho
  obtain ⟨d, hd⟩ : ∃ d, d = wrapsub s.2.writingPos s.2.readablePos := ⟨_, rfl⟩
  have hr : s.2.readablePos = offset s.2.readablePos 0 := (offset_zero _).symm
  have hw : s.2.writingPos = offset s.2.readablePos d := by rw [hd, offset_wrapsub]
  rw [← hd] at hbehind hlag
  cases c with
  | write ts xs =>
      obtain ⟨a, ha⟩ : ∃ a, a = wrapsub (ts + BitVec.ofNat 64 xs.length) s.2.writingPos :=
        ⟨_, rfl⟩
      obtain ⟨hlow, hhigh⟩ :=
        fitsIsize_wrapsub (ts + BitVec.ofNat 64 xs.length) s.2.writingPos
      have hend : ts + BitVec.ofNat 64 xs.length = offset s.2.readablePos (d + a) := by
        rw [← offset_add, ← hw, ha, offset_wrapsub]
      have hfwd : (write ts xs).forward s = max 0 a := by rw [ha]; rfl
      have he : RBInput.endAt s.2.writingPos (ts + BitVec.ofNat 64 xs.length) =
          offset s.2.readablePos (d + max 0 a) := by
        rw [hend, hw, RBInput.endAt_offset _ ⟨by omega, by omega⟩]
        congr 1
        omega
      obtain ⟨hwpos, hrpos⟩ := RBInput.wrote_positions sh s.1 hr he (by omega) (by omega)
        hwait
      have hin := RBInput.storedInput_holeFixWait sh s.1 ts xs s.2
      obtain ⟨h0, h1, h2⟩ := RBInput.readableAfter_bounds sh (RBInput.storedInput sh s.1 ts xs s.2)
        (RBInput.findsHole ts s.2) s.2.readablePos (show 0 ≤ d + max 0 a by omega)
      rw [hin] at h2
      refine ⟨_, ⟨?_, hrpos, by omega, h0, by omega, ?_⟩⟩
      · rw [hfwd]
        refine hwpos.trans ?_
        rw [← offset_add, ← hw]
      · rw [after_holeFixWait]
        omega
  | close u =>
      obtain ⟨a, ha⟩ : ∃ a, a = wrapsub u s.2.writingPos := ⟨_, rfl⟩
      obtain ⟨hlow, hhigh⟩ := fitsIsize_wrapsub u s.2.writingPos
      have hu : u = offset s.2.readablePos (d + a) := by
        rw [← offset_add, ← hw, ha, offset_wrapsub]
      have hfwd : (close u : RingCall α).forward s = max 0 a := by rw [ha]; rfl
      obtain ⟨hwpos, hrpos⟩ := RBInput.closedMem_positions sh s.1 hr hw hbehind
        (u := d + a) ⟨by omega, by omega⟩ (by omega)
      rw [← hu] at hwpos hrpos
      refine ⟨_, ⟨?_, hrpos, by omega, by omega, by omega, ?_⟩⟩
      · rw [hfwd]
        refine hwpos.trans ?_
        rw [show max d (d + a) = d + max 0 a by omega, ← offset_add, ← hw]
      · rw [after_holeFixWait]
        omega

end RingCall

theorem Moves.wrapsub_after {s s' : RingState α} {fwd r : Int} (h : Moves s s' fwd r)
    (hwait : s'.1.holeFixWait.toNat < 2 ^ 63) :
    wrapsub s'.2.writingPos s'.2.readablePos =
      wrapsub s.2.writingPos s.2.readablePos + fwd - r := by
  have hbehind := h.behind
  have hlag := h.wait
  have hw : s'.2.writingPos =
      offset s.2.readablePos (wrapsub s.2.writingPos s.2.readablePos + fwd) := by
    rw [h.writing, ← offset_add, offset_wrapsub]
  rw [hw, h.reading, wrapsub_offset _ ⟨by omega, by omega⟩]

theorem Moves.ordered {s s' : RingState α} {fwd r : Int} (h : Moves s s' fwd r)
    (hwait : s'.1.holeFixWait.toNat < 2 ^ 63) : Ordered s' := by
  have hsub := h.wrapsub_after hwait
  have hbehind := h.behind
  have hlag := h.wait
  exact ⟨by omega, by omega⟩

/-! ## Runs -/

section Runs

variable [Inhabited α] {sh : RingShared}

theorem RingCall.after_of_run {c : RingCall α} {s s' : RingState α}
    (h : c.run sh s = some s') : s' = c.after sh s := by
  rw [RingCall.run_eq] at h
  split at h
  · exact (Option.some.inj h).symm
  · cases h

theorem runCalls_append (pre post : List (RingCall α)) (s : RingState α) :
    runCalls sh (pre ++ post) s = (runCalls sh pre s).bind (runCalls sh post) := by
  induction pre generalizing s with
  | nil => rfl
  | cons c pre ih =>
      cases hc : c.run sh s with
      | none => simp [runCalls, hc]
      | some s1 => simpa [runCalls, hc] using ih s1

/-- The condition of a run, at the call after a prefix. -/
theorem Along.at_call {P : RingState α → RingCall α → Prop} {pre post : List (RingCall α)}
    {c : RingCall α} {s s1 : RingState α} (h : Along sh P (pre ++ c :: post) s)
    (hs : runCalls sh pre s = some s1) : P s1 c := by
  induction pre generalizing s with
  | nil =>
      obtain rfl : s = s1 := Option.some.inj hs
      exact h.1
  | cons c0 pre ih =>
      obtain ⟨s0, hc0, hrest⟩ := Option.bind_eq_some_iff.mp hs
      exact ih (h.2 s0 hc0) hrest

/-- Whatever the calls, as long as none panics. -/
theorem runCalls_ordered {cs : List (RingCall α)} {s s' : RingState α} (ho : Ordered s)
    (hwait : s.1.holeFixWait.toNat < 2 ^ 63) (hrun : runCalls sh cs s = some s') :
    Ordered s' ∧ s'.1.holeFixWait = s.1.holeFixWait := by
  induction cs generalizing s with
  | nil =>
      obtain rfl : s = s' := Option.some.inj hrun
      exact ⟨ho, rfl⟩
  | cons c cs ih =>
      obtain ⟨s1, hc, hrest⟩ := Option.bind_eq_some_iff.mp hrun
      obtain rfl := RingCall.after_of_run hc
      have hin := RingCall.after_holeFixWait sh c s
      obtain ⟨r, hmoves⟩ := RingCall.after_moves sh ho hwait c
      obtain ⟨ho', hin'⟩ := ih (hmoves.ordered (by rw [hin]; exact hwait))
        (by rw [hin]; exact hwait) hrest
      exact ⟨ho', hin'.trans hin⟩

/-- The wrapping differences of a call are those of integers below `2^63`: the
end of a packet, or of a close, is less than `2^63` ahead of the readable
position. -/
def RingCall.Comparable (s : RingState α) : RingCall α → Prop
  | write ts xs => wrapsub ts s.2.writingPos + xs.length +
      wrapsub s.2.writingPos s.2.readablePos < 2 ^ 63
  | close u => wrapsub u s.2.writingPos + wrapsub s.2.writingPos s.2.readablePos < 2 ^ 63

instance (s : RingState α) : (c : RingCall α) → Decidable (c.Comparable s)
  | .write _ _ => inferInstanceAs (Decidable (_ < _))
  | .close _ => inferInstanceAs (Decidable (_ < _))

omit [Inhabited α] in
theorem RingCall.forward_of_comparable {c : RingCall α} {s : RingState α}
    (ho : Ordered s) (hc : c.Comparable s) :
    c.forward s + wrapsub s.2.writingPos s.2.readablePos < 2 ^ 63 := by
  have hbehind := ho.behind
  have hlt := (fitsIsize_wrapsub s.2.writingPos s.2.readablePos).2
  cases c with
  | write ts xs =>
      have hnear : wrapsub ts s.2.writingPos + xs.length +
        wrapsub s.2.writingPos s.2.readablePos < 2 ^ 63 := hc
      rw [forward, wrapsub_add_ofNat (by omega)]
      omega
  | close u =>
      have hnear : wrapsub u s.2.writingPos +
        wrapsub s.2.writingPos s.2.readablePos < 2 ^ 63 := hc
      rw [forward]
      omega

/-- At every call of a run whose differences stay below `2^63`, neither
position moves backwards, and afterwards the readable position is behind the
writing position by at most `hole_fix_wait`. -/
theorem positions_ordered (length : Nat) (hlen : length ≤ 2 ^ 61) (startTime holeFixWait : Usize)
    (hwait : holeFixWait.toNat ≤ (ownedShared length hlen).itemsSize) (calls : List (RingCall α))
    (hcalls : Along (ownedShared length hlen) RingCall.Comparable calls
      (newOwned startTime holeFixWait))
    (pre : List (RingCall α)) (c : RingCall α) (hpre : pre ++ [c] <+: calls) (s s' : RingState α)
    (hs : runCalls (ownedShared length hlen) pre (newOwned startTime holeFixWait) = some s)
    (hs' : c.run (ownedShared length hlen) s = some s') :
    0 ≤ wrapsub s'.2.readablePos s.2.readablePos ∧
      0 ≤ wrapsub s'.2.writingPos s.2.writingPos ∧
      0 ≤ wrapsub s'.2.writingPos s'.2.readablePos ∧
      wrapsub s'.2.writingPos s'.2.readablePos ≤ holeFixWait.toNat := by
  have hN := (ownedShared length hlen).itemsSize_le
  obtain ⟨post, rfl⟩ := hpre
  rw [List.append_assoc, List.singleton_append] at hcalls
  obtain ⟨ho, hin⟩ := runCalls_ordered (ordered_newOwned startTime holeFixWait)
    (show holeFixWait.toNat < 2 ^ 63 by omega) hs
  have hh : s.1.holeFixWait = holeFixWait := hin
  have hnear := RingCall.forward_of_comparable ho (hcalls.at_call hs)
  obtain ⟨r, hmoves⟩ := RingCall.after_moves (ownedShared length hlen) ho
    (by rw [hh]; omega) c
  rw [← RingCall.after_of_run hs'] at hmoves
  have hin' : s'.1.holeFixWait = holeFixWait := by
    rw [RingCall.after_of_run hs', RingCall.after_holeFixWait]
    exact hh
  obtain ⟨hb', hl'⟩ := hmoves.ordered (by rw [hin']; omega)
  rw [hin'] at hl'
  have hbehind := ho.behind
  have hfwd := hmoves.fwd_nonneg
  have hread := hmoves.read_nonneg
  have hr := hmoves.behind
  refine ⟨?_, ?_, hb', hl'⟩
  · have hsub := wrapsub_offset s.2.readablePos (a := r) (c := 0) ⟨by omega, by omega⟩
    rw [offset_zero, ← hmoves.reading] at hsub
    omega
  · have hsub := wrapsub_offset s.2.writingPos (a := c.forward s) (c := 0) ⟨by omega, by omega⟩
    rw [offset_zero, ← hmoves.writing] at hsub
    omega

theorem positions_ordered_shortRun :
    ∃ s s', runCalls (ownedShared 4 (by decide)) (shortRun.take 2) (newOwned 0 2) = some s ∧
      (RingCall.write 2 [12]).run (ownedShared 4 (by decide)) s = some s' ∧
      0 ≤ wrapsub s'.2.readablePos s.2.readablePos ∧
      0 ≤ wrapsub s'.2.writingPos s.2.writingPos ∧
      0 ≤ wrapsub s'.2.writingPos s'.2.readablePos ∧
      wrapsub s'.2.writingPos s'.2.readablePos ≤ 2 := by
  have hrun : (runCalls (ownedShared 4 (by decide)) (shortRun.take 2) (newOwned 0 2)).isSome := by
    decide
  obtain ⟨s, hs⟩ := Option.isSome_iff_exists.mp hrun
  obtain ⟨s', hs'⟩ : ∃ s', (RingCall.write 2 [12]).run (ownedShared 4 (by decide)) s = some s' :=
    ⟨_, by rw [RingCall.run_eq, if_pos (by decide)]⟩
  exact ⟨s, s', hs, hs', positions_ordered 4 (by decide) 0 2 (by decide) shortRun (by decide)
    (shortRun.take 2) (.write 2 [12]) ⟨shortRun.drop 3, rfl⟩ s s' hs hs'⟩

end Runs

end Inferno
