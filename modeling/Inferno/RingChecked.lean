import Inferno.RingPositions

/-!
# A build with overflow checks

Positions are added and subtracted with `wrapping_add` and `wrapping_sub`,
with one exception: the scan for fixed holes counts with `+=`. The programs
below are those of the writer with that addition checked, if `checked` says
so. A call then panics exactly if the scan counts past `usize::MAX`
(`RingCall.runIn_eq`).
-/

namespace Inferno

variable {α : Type}

namespace RBInput

open RingAct

/-! ## The programs -/

/-- One slot of the scan; `none` is the overflow of `new_readable_pos += 1`. -/
def countReadyIn (checked : Bool) (inp : RBInput) (acc : Bool × Usize) (i : Nat) :
    Option (Bool × Usize) :=
  if !acc.1 then some acc
  else if inp.itemReady i then
    if checked ∧ acc.2 = BitVec.allOnes 64 then none else some (true, acc.2 + 1)
  else some (false, acc.2)

def checkHolesIn (checked : Bool) (sh : RingShared) (inp : RBInput) (checkUntilPos : Usize) :
    RingProg α Unit := do
  let r ← loadReadable
  if wrapsub checkUntilPos r > 0 then do
    let newReadablePos ← loadReadable
    let r ← loadReadable
    match (forInRing sh.itemsSize r checkUntilPos).foldlM (countReadyIn checked inp)
        (true, newReadablePos) with
    | some acc => storeReadable acc.2
    | none => .fail
  else pure ()

def closeItemsUntilInternalIn [Inhabited α] (checked : Bool) (sh : RingShared) (inp : RBInput)
    (closeUntilPos checkUntilPos : Usize) : RingProg α Unit := do
  closeHoles sh inp closeUntilPos
  checkHolesIn checked sh inp checkUntilPos

def publishReadableIn [Inhabited α] (checked : Bool) (sh : RingShared) (inp : RBInput)
    (hole : Bool) : RingProg α Unit := do
  if !hole then do
    let w ← loadWriting
    storeReadable w
  else do
    let w ← loadWriting
    let w' ← loadWriting
    closeItemsUntilInternalIn checked sh inp (w - inp.holeFixWait) w'

def writeFromAtIn [Inhabited α] (checked : Bool) (sh : RingShared) (inp : RBInput)
    (startTimestamp : Usize) (input : List α) : RingProg α (RBInput × Usize) := do
  Prog.assert (input.length < sh.itemsSize)
  let (inp, newHole) ← markHole sh inp startTimestamp
  let r ← loadReadable
  let w ← loadWriting
  let hole := newHole || r != w
  let endTs := startTimestamp + BitVec.ofNat 64 input.length
  publishWriting endTs
  let inp ← writeItems sh inp startTimestamp endTs input
  publishReadableIn checked sh inp hole
  commitReadablePos sh
  let r ← loadReadable
  pure (inp, r)

def closeItemsUntilIn [Inhabited α] (checked : Bool) (sh : RingShared) (inp : RBInput)
    (untilPos : Usize) : RingProg α Unit := do
  let writingPos ← loadWriting
  let needUntilPos := untilPos
  let untilPos := if wrapsub untilPos writingPos > 0 then writingPos else untilPos
  closeItemsUntilInternalIn checked sh inp untilPos untilPos
  fillUntil sh untilPos needUntilPos
  commitReadablePos sh

/-! ## The scan -/

variable (sh : RingShared) (inp : RBInput)

theorem foldlM_countReadyIn_stopped (checked : Bool) (slots : List Nat) (p : Usize) :
    slots.foldlM (countReadyIn checked inp) (false, p) = some (false, p) := by
  induction slots with
  | nil => rfl
  | cons i slots ih => exact ih

/-- The scan from `p` counts past `usize::MAX`: every slot up to there is ready. -/
def Carries (slots : List Nat) (p : Usize) : Prop := 2 ^ 64 ≤ p.toNat + inp.readyRun slots

instance (slots : List Nat) (p : Usize) : Decidable (Carries inp slots p) :=
  inferInstanceAs (Decidable (_ ≤ _))

theorem allOnes_add_one {p : Usize} (h : p ≠ BitVec.allOnes 64) : (p + 1).toNat = p.toNat + 1 := by
  have hne : p.toNat ≠ 2 ^ 64 - 1 := fun hmax => h (BitVec.eq_of_toNat_eq hmax)
  have hlt := p.isLt
  rw [BitVec.toNat_add, show (1 : Usize).toNat = 1 from rfl]
  omega

theorem foldlM_countReadyIn_some {checked : Bool} {slots : List Nat} {p : Usize}
    (h : checked = true → ¬Carries inp slots p) :
    ∃ b, slots.foldlM (countReadyIn checked inp) (true, p) =
      some (b, p + BitVec.ofNat 64 (inp.readyRun slots)) := by
  unfold Carries at h
  induction slots generalizing p with
  | nil => exact ⟨true, by simp⟩
  | cons i slots ih =>
      by_cases hready : inp.itemReady i = true
      · rw [readyRun_cons_ready inp hready] at h ⊢
        have hfits : ¬(checked = true ∧ p = BitVec.allOnes 64) := fun ⟨hc, hp⟩ => by
          have hmax := h hc
          rw [hp, BitVec.toNat_allOnes] at hmax
          omega
        obtain ⟨b, hrest⟩ := @ih (p + 1) fun hc => by
          have hmax := h hc
          rw [allOnes_add_one fun hp => hfits ⟨hc, hp⟩]
          omega
        refine ⟨b, ?_⟩
        rw [List.foldlM_cons]
        simp only [countReadyIn, hready, Bool.not_true, Bool.false_eq_true, if_false, if_true]
        rw [if_neg hfits, Option.bind_eq_bind, Option.bind_some, hrest, BitVec.add_assoc,
          BitVec.add_comm 1, BitVec.ofNat_add]
        rfl
      · refine ⟨false, ?_⟩
        rw [List.foldlM_cons, readyRun_cons_clear inp hready]
        simp only [countReadyIn, hready, Bool.not_true, Bool.false_eq_true, if_false]
        rw [Option.bind_eq_bind, Option.bind_some, foldlM_countReadyIn_stopped]
        simp

theorem foldlM_countReadyIn_none {slots : List Nat} {p : Usize} (h : Carries inp slots p) :
    slots.foldlM (countReadyIn true inp) (true, p) = none := by
  unfold Carries at h
  induction slots generalizing p with
  | nil =>
      have hlt := p.isLt
      rw [readyRun_nil] at h
      omega
  | cons i slots ih =>
      by_cases hready : inp.itemReady i = true
      · rw [readyRun_cons_ready inp hready] at h
        rw [List.foldlM_cons]
        simp only [countReadyIn, hready, Bool.not_true, Bool.false_eq_true, if_false, if_true,
          true_and]
        by_cases hmax : p = BitVec.allOnes 64
        · rw [if_pos hmax]
          rfl
        · rw [if_neg hmax, Option.bind_eq_bind, Option.bind_some]
          exact ih (by rw [allOnes_add_one hmax]; omega)
      · have hlt := p.isLt
        rw [readyRun_cons_clear inp hready] at h
        omega

/-- The scan of `checkHoles` from `r` up to `e` counts past `usize::MAX`. -/
def ScanCarries (r e : Usize) : Prop :=
  0 < wrapsub e r ∧ Carries inp (forInRing sh.itemsSize r e) r

instance (r e : Usize) : Decidable (ScanCarries sh inp r e) := inferInstanceAs (Decidable (_ ∧ _))

theorem checkHolesIn_exec (checked : Bool) (e : Usize) (m : RingMem α) :
    (checkHolesIn checked sh inp e).exec ringMem m =
      if checked = true ∧ ScanCarries sh inp m.readablePos e then none
      else some ((), { m with readablePos := scannedTo sh inp m.readablePos e }) := by
  show Prog.exec ringMem (if wrapsub e m.readablePos > 0 then _ else _) m = _
  unfold scannedTo ScanCarries
  by_cases he : wrapsub e m.readablePos > 0
  · rw [if_pos he, if_pos he]
    show Prog.exec ringMem
      (match (forInRing sh.itemsSize m.readablePos e).foldlM (countReadyIn checked inp)
          (true, m.readablePos) with
        | some acc => storeReadable acc.2
        | none => .fail) m = _
    by_cases hcarry : checked = true ∧ Carries inp (forInRing sh.itemsSize m.readablePos e)
        m.readablePos
    · obtain ⟨rfl, hcarry⟩ := hcarry
      rw [if_pos ⟨rfl, he, hcarry⟩, foldlM_countReadyIn_none inp hcarry]
      rfl
    · rw [if_neg fun h => hcarry ⟨h.1, h.2.2⟩]
      obtain ⟨b, hsome⟩ := foldlM_countReadyIn_some inp
        (fun hc hcarry' => hcarry ⟨hc, hcarry'⟩)
      rw [hsome]
      rfl
  · rw [if_neg he, if_neg he, if_neg fun h => he h.2.1]
    rfl

/-! ## The calls -/

variable [Inhabited α]

/-- The scan a packet causes counts past `usize::MAX`. It starts where the
readable position is, or where the forced close has left it. -/
def WriteCarries (ts : Usize) (xs : List α) (m : RingMem α) : Prop :=
  findsHole ts m = true ∧
    ScanCarries sh (storedInput sh inp ts xs m)
      (endAt m.readablePos
        (endAt m.writingPos (ts + BitVec.ofNat 64 xs.length) - inp.holeFixWait))
      (endAt m.writingPos (ts + BitVec.ofNat 64 xs.length))

instance (ts : Usize) (xs : List α) (m : RingMem α) : Decidable (WriteCarries sh inp ts xs m) :=
  inferInstanceAs (Decidable (_ ∧ _))

theorem publishReadableIn_exec (checked hole : Bool) (m : RingMem α) :
    (publishReadableIn checked sh inp hole).exec ringMem m =
      if checked = true ∧ hole = true ∧ ScanCarries sh inp
          (endAt m.readablePos (m.writingPos - inp.holeFixWait)) m.writingPos then none
      else some ((), publishedMem sh inp hole m) := by
  cases hole with
  | false =>
      rw [if_neg fun h => by cases h.2.1]
      rfl
  | true =>
      have hclose := closeHoles_exec sh inp (m.writingPos - inp.holeFixWait) m
      have hscan := checkHolesIn_exec sh inp checked m.writingPos
        (closedHoles sh inp (m.writingPos - inp.holeFixWait) m)
      refine ((Prog.exec_bind_of hclose).trans hscan).trans ?_
      rw [closedHoles_readablePos]
      by_cases hcarry : checked = true ∧ ScanCarries sh inp
          (endAt m.readablePos (m.writingPos - inp.holeFixWait)) m.writingPos
      · rw [if_pos hcarry, if_pos ⟨hcarry.1, rfl, hcarry.2⟩]
      · rw [if_neg hcarry, if_neg fun h => hcarry ⟨h.1, h.2.2⟩, ← closedHoles_readablePos sh]
        rfl

theorem writeFromAtIn_exec (checked : Bool) {xs : List α} (hn : xs.length < sh.itemsSize)
    (ts : Usize) (m : RingMem α) :
    (writeFromAtIn checked sh inp ts xs).exec ringMem m =
      if checked = true ∧ WriteCarries sh inp ts xs m then none
      else some (((wrote sh inp ts xs m).1, (wrote sh inp ts xs m).2.readablePos),
        (wrote sh inp ts xs m).2) := by
  refine (writeItems_then sh inp hn ts m fun inp hole => do
    publishReadableIn checked sh inp hole
    commitReadablePos sh
    let r ← RingAct.loadReadable
    pure (inp, r)).trans ?_
  have hpublish : (publishReadableIn checked sh (storedInput sh inp ts xs m)
      (findsHole ts m)).exec ringMem (storedMem sh ts xs m) =
      if checked = true ∧ WriteCarries sh inp ts xs m then none
      else some ((), publishedMem sh (storedInput sh inp ts xs m) (findsHole ts m)
        (storedMem sh ts xs m)) := by
    have hexec := publishReadableIn_exec sh (storedInput sh inp ts xs m) checked
      (findsHole ts m) (storedMem sh ts xs m)
    rw [storedInput_holeFixWait] at hexec
    exact hexec
  rw [Prog.bind_eq, Prog.exec_bind, hpublish]
  by_cases hcarry : checked = true ∧ WriteCarries sh inp ts xs m
  · rw [if_pos hcarry, if_pos hcarry]
    rfl
  · rw [if_neg hcarry, if_neg hcarry, Option.bind_some]
    exact Prog.exec_bind_of (commitReadablePos_exec sh _)

/-- A close scans nothing: it has just closed all it looks at. -/
theorem closeItemsUntilIn_exec (checked : Bool) (u : Usize) (m : RingMem α) :
    (closeItemsUntilIn checked sh inp u).exec ringMem m = some ((), closedMem sh inp u m) := by
  have hclose := closeHoles_exec sh inp (closeEnd m.writingPos u) m
  have hscan := checkHolesIn_exec sh inp checked (closeEnd m.writingPos u)
    (closedHoles sh inp (closeEnd m.writingPos u) m)
  have hnone : ¬ScanCarries sh inp
      (closedHoles sh inp (closeEnd m.writingPos u) m).readablePos
      (closeEnd m.writingPos u) := by
    rw [closedHoles_readablePos]
    rintro ⟨hpos, _⟩
    unfold endAt at hpos
    split at hpos
    · rw [wrapsub_self] at hpos
      exact absurd hpos (by decide)
    · next hneg => exact hneg hpos
  rw [if_neg fun h => hnone h.2] at hscan
  refine (Prog.exec_bind_of ((Prog.exec_bind_of hclose).trans hscan)).trans ?_
  refine (Prog.exec_bind_of (fillUntil_exec sh (closeEnd m.writingPos u) u _)).trans ?_
  exact commitReadablePos_exec sh _

end RBInput

/-! ## Runs -/

namespace RingCall

variable [Inhabited α]

def progIn (checked : Bool) (sh : RingShared) (inp : RBInput) : RingCall α → RingProg α RBInput
  | write ts xs => do
      let r ← RBInput.writeFromAtIn checked sh inp ts xs
      pure r.1
  | close u => do
      RBInput.closeItemsUntilIn checked sh inp u
      pure inp

/-- The call in a build with or without overflow checks; `none` is a panic. -/
def runIn (checked : Bool) (sh : RingShared) (c : RingCall α) (s : RingState α) :
    Option (RingState α) :=
  (c.progIn checked sh s.1).exec ringMem s.2

/-- The call counts past `usize::MAX`. -/
def Carries (sh : RingShared) (s : RingState α) : RingCall α → Prop
  | write ts xs => RBInput.WriteCarries sh s.1 ts xs s.2
  | close _ => False

instance (sh : RingShared) (s : RingState α) : (c : RingCall α) → Decidable (c.Carries sh s)
  | write ts xs => inferInstanceAs (Decidable (RBInput.WriteCarries sh s.1 ts xs s.2))
  | close _ => isFalse id

theorem runIn_eq (checked : Bool) (sh : RingShared) (c : RingCall α) (s : RingState α) :
    c.runIn checked sh s =
      if c.Short sh ∧ ¬(checked = true ∧ c.Carries sh s) then some (c.after sh s) else none := by
  cases c with
  | write ts xs =>
      by_cases hn : xs.length < sh.itemsSize
      · have hwrite := RBInput.writeFromAtIn_exec sh s.1 checked hn ts s.2
        show Prog.exec ringMem (RBInput.writeFromAtIn checked sh s.1 ts xs >>= fun r => pure r.1)
          s.2 = _
        rw [Prog.bind_eq, Prog.exec_bind, hwrite]
        by_cases hcarry : checked = true ∧ RBInput.WriteCarries sh s.1 ts xs s.2
        · rw [if_pos hcarry, if_neg fun h => h.2 hcarry]
          rfl
        · rw [if_neg hcarry, if_pos ⟨hn, hcarry⟩]
          rfl
      · rw [if_neg fun h => hn h.1]
        show Prog.exec ringMem ((Prog.assert _).bind _ >>= _) _ = _
        simp only [Prog.assert, if_neg hn, Prog.fail_bind, Prog.bind_eq, Prog.exec_fail]
  | close u =>
      rw [if_pos ⟨trivial, fun h => h.2⟩]
      exact Prog.exec_bind_of (RBInput.closeItemsUntilIn_exec sh s.1 checked u s.2)

/-- Without the checks it is the program of before. -/
theorem runIn_false (sh : RingShared) (c : RingCall α) (s : RingState α) :
    c.runIn false sh s = c.run sh s := by
  rw [runIn_eq, run_eq]
  by_cases hn : c.Short sh
  · rw [if_pos ⟨hn, fun h => by cases h.1⟩, if_pos hn]
  · rw [if_neg fun h => hn h.1, if_neg hn]

end RingCall

end Inferno
