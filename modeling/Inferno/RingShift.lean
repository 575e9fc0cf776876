import Inferno.RingChecked

/-!
# Translation through the wrap

Shift every timestamp and the start time by the same whole number of laps.
Differences and slots stay what they were, so calls do what they did, at
positions that are shifted too, and reads return the same
(`RingCall.after_shift`, `readAt_shift`). What is not invariant is the one
plain addition: a build with overflow checks stops when a scan reaches
`usize::MAX` (`translates_iff`).
-/

namespace Inferno

variable {α : Type}

/-! ## Shifts -/

/-- `d` is a whole number of laps. -/
def Laps (sh : RingShared) (d : Usize) : Prop := sh.itemsSize ∣ d.toNat

theorem wrapsub_shift (a b d : Usize) : wrapsub (a + d) (b + d) = wrapsub a b := by
  have hsub : a + d - (b + d) = a - b := add_sub_add_right_eq_sub _ _ _
  rw [wrapsub, wrapsub, Serial.sdiff, Serial.sdiff, hsub]

section Shift

variable {sh : RingShared} {d : Usize}

theorem slotAt_shift (hd : Laps sh d) (t : Usize) : sh.slotAt (t + d) = sh.slotAt t := by
  obtain ⟨k, hk, hpow⟩ := sh.itemsSize_log
  have hdvd : sh.itemsSize ∣ 2 ^ 64 := hpow ▸ Nat.pow_dvd_pow 2 (by omega)
  obtain ⟨c, hc⟩ := hd
  rw [RingShared.slotAt, RingShared.slotAt, BitVec.toNat_add, Nat.mod_mod_of_dvd _ hdvd, hc,
    Nat.add_mul_mod_self_left]

theorem walk_shift (hd : Laps sh d) (t : Usize) (n : Nat) : sh.walk (t + d) n = sh.walk t n := by
  unfold RingShared.walk
  refine List.map_congr_left fun j _ => ?_
  rw [add_right_comm, slotAt_shift hd]

theorem forInRing_shift (hd : Laps sh d) (t u : Usize) :
    forInRing sh.itemsSize (t + d) (u + d) = forInRing sh.itemsSize t u := by
  have hsub : u + d - (t + d) = u - t := add_sub_add_right_eq_sub _ _ _
  have hwalk := sh.forInRing_add t (u - t).toNat
  have hwalk' := sh.forInRing_add (t + d) (u + d - (t + d)).toNat
  rw [Serial.add_toNat_sub] at hwalk hwalk'
  rw [hwalk, hwalk', hsub]
  exact walk_shift hd t _

/-! ## Shifted calls -/

/-- The memory with both positions shifted. -/
def RingMem.shift (d : Usize) (m : RingMem α) : RingMem α :=
  { m with readablePos := m.readablePos + d, writingPos := m.writingPos + d }

def RingState.shift (d : Usize) (s : RingState α) : RingState α := (s.1, s.2.shift d)

def RingCall.shift (d : Usize) : RingCall α → RingCall α
  | .write ts xs => .write (ts + d) xs
  | .close u => .close (u + d)

namespace RBInput

theorem endAt_shift (w e : Usize) : endAt (w + d) (e + d) = endAt w e + d := by
  unfold endAt
  rw [wrapsub_shift]
  split <;> rfl

theorem closeEnd_shift (w u : Usize) : closeEnd (w + d) (u + d) = closeEnd w u + d := by
  unfold closeEnd
  rw [wrapsub_shift]
  split <;> rfl

theorem markedHole_shift (hd : Laps sh d) (inp : RBInput) (w ts : Usize) :
    markedHole sh inp (w + d) (ts + d) = markedHole sh inp w ts := by
  unfold markedHole
  rw [wrapsub_shift, forInRing_shift hd]

theorem storedInput_shift (hd : Laps sh d) (inp : RBInput) (ts : Usize) (xs : List α)
    (m : RingMem α) : storedInput sh inp (ts + d) xs (m.shift d) = storedInput sh inp ts xs m := by
  unfold storedInput
  rw [show (m.shift d).writingPos = m.writingPos + d from rfl, markedHole_shift hd, walk_shift hd]
  rfl

theorem storedMem_shift (hd : Laps sh d) (ts : Usize) (xs : List α) (m : RingMem α) :
    storedMem sh (ts + d) xs (m.shift d) = (storedMem sh ts xs m).shift d := by
  unfold storedMem RingMem.shift
  rw [walk_shift hd, add_right_comm, endAt_shift]

theorem findsHole_shift (ts : Usize) (m : RingMem α) :
    findsHole (ts + d) (m.shift d) = findsHole ts m := by
  unfold findsHole RingMem.shift
  rw [wrapsub_shift]
  have hne : (m.readablePos + d != m.writingPos + d) = (m.readablePos != m.writingPos) := by
    simp [bne]
  rw [hne]

variable [Inhabited α]

theorem closedHoles_shift (hd : Laps sh d) (inp : RBInput) (c : Usize) (m : RingMem α) :
    closedHoles sh inp (c + d) (m.shift d) = (closedHoles sh inp c m).shift d := by
  have hslots : closingSlots sh (c + d) (m.shift d) = closingSlots sh c m := by
    unfold closingSlots RingMem.shift
    rw [forInRing_shift hd]
  unfold closedHoles
  rw [hslots, show (m.shift d).readablePos = m.readablePos + d from rfl, wrapsub_shift]
  split <;> rfl

theorem scannedTo_shift (hd : Laps sh d) (inp : RBInput) (r e : Usize) :
    scannedTo sh inp (r + d) (e + d) = scannedTo sh inp r e + d := by
  unfold scannedTo
  rw [wrapsub_shift, forInRing_shift hd]
  split
  · rw [add_right_comm]
  · rfl

theorem publishedMem_shift (hd : Laps sh d) (inp : RBInput) (hole : Bool) (m : RingMem α) :
    publishedMem sh inp hole (m.shift d) = (publishedMem sh inp hole m).shift d := by
  cases hole with
  | false => rfl
  | true =>
      have hback : (m.shift d).writingPos - inp.holeFixWait =
          m.writingPos - inp.holeFixWait + d := add_sub_right_comm _ _ _
      have hscan := scannedTo_shift hd inp
        (closedHoles sh inp (m.writingPos - inp.holeFixWait) m).readablePos m.writingPos
      simp only [publishedMem, if_true]
      rw [hback, closedHoles_shift hd]
      simp only [RingMem.shift]
      rw [hscan]

theorem filledMem_shift (hd : Laps sh d) (untilPos need : Usize) (m : RingMem α) :
    filledMem sh (untilPos + d) (need + d) (m.shift d) = (filledMem sh untilPos need m).shift d := by
  have hne : (need + d != untilPos + d) = (need != untilPos) := by
    simp [bne]
  unfold filledMem
  rw [hne, forInRing_shift hd]
  split <;> rfl

omit [Inhabited α] in
theorem committedMem_owned (hdest : sh.hasPosDest = false) (m : RingMem α) :
    committedMem sh m = m := by
  unfold committedMem
  rw [hdest]
  rfl

/-- Without a destination for the positions, the shifted write in the shifted
memory does what the write does. -/
theorem wrote_shift (hd : Laps sh d) (hdest : sh.hasPosDest = false) (inp : RBInput) (ts : Usize)
    (xs : List α) (m : RingMem α) :
    wrote sh inp (ts + d) xs (m.shift d) =
      ((wrote sh inp ts xs m).1, (wrote sh inp ts xs m).2.shift d) := by
  unfold wrote
  rw [storedInput_shift hd, findsHole_shift, storedMem_shift hd, publishedMem_shift hd,
    committedMem_owned hdest, committedMem_owned hdest]

theorem closedMem_shift (hd : Laps sh d) (hdest : sh.hasPosDest = false) (inp : RBInput)
    (u : Usize) (m : RingMem α) :
    closedMem sh inp (u + d) (m.shift d) = (closedMem sh inp u m).shift d := by
  have hend : closeEnd (m.shift d).writingPos (u + d) = closeEnd m.writingPos u + d :=
    closeEnd_shift _ _
  have hscan := scannedTo_shift hd inp
    (closedHoles sh inp (closeEnd m.writingPos u) m).readablePos (closeEnd m.writingPos u)
  have hfill := filledMem_shift hd (closeEnd m.writingPos u) u
    { closedHoles sh inp (closeEnd m.writingPos u) m with
      readablePos := scannedTo sh inp
        (closedHoles sh inp (closeEnd m.writingPos u) m).readablePos (closeEnd m.writingPos u) }
  unfold closedMem
  rw [hend, closedHoles_shift hd, committedMem_owned hdest, committedMem_owned hdest, ← hfill]
  unfold RingMem.shift
  rw [hscan]

end RBInput

theorem RingCall.after_shift [Inhabited α] (hd : Laps sh d) (hdest : sh.hasPosDest = false)
    (c : RingCall α) (s : RingState α) :
    (c.shift d).after sh (RingState.shift d s) = RingState.shift d (c.after sh s) := by
  cases c with
  | write ts xs => exact RBInput.wrote_shift hd hdest s.1 ts xs s.2
  | close u => exact congrArg (Prod.mk s.1) (RBInput.closedMem_shift hd hdest s.1 u s.2)

theorem RingCall.short_shift [Inhabited α] (c : RingCall α) :
    (c.shift d).Short sh ↔ c.Short sh := by
  cases c <;> exact Iff.rfl

/-! ## Shifted reads -/

theorem copyOut_shift (hd : Laps sh d) (m : RingMem α) (t : Usize) {out : List α} {n : Nat}
    (hn : n ≤ out.length) :
    (RBOutput.copyOut sh (t + d) out n).exec ringMem (m.shift d) =
      ((RBOutput.copyOut sh t out n).exec ringMem m).map fun r => (r.1, r.2.shift d) := by
  cases hvalid : m.valid with
  | false =>
      rw [RBOutput.copyOut_invalid sh (m := m.shift d) hvalid, RBOutput.copyOut_invalid sh hvalid]
      rfl
  | true =>
      have hwalk := forInRing_shift hd t (t + BitVec.ofNat 64 n)
      rw [add_right_comm] at hwalk
      rw [RBOutput.copyOut_exec sh (m := m.shift d) hvalid _ hn,
        RBOutput.copyOut_exec sh hvalid _ hn, hwalk,
        show (m.shift d).writingPos = m.writingPos + d from rfl, wrapsub_shift]
      rfl

theorem readAt_shift (hd : Laps sh d) (m : RingMem α) (t : Usize) (out : List α) :
    (RBOutput.readAt sh (t + d) out).exec ringMem (m.shift d) =
      ((RBOutput.readAt sh t out).exec ringMem m).map fun r => (r.1, r.2.shift d) := by
  rw [RBOutput.readAt_exec, RBOutput.readAt_exec,
    show (m.shift d).readablePos = m.readablePos + d from rfl, wrapsub_shift]
  cases hlen : (if sh.unconditionalRead then some out.length
      else RBOutput.copyLen sh (wrapsub m.readablePos t) out.length) with
  | none => rfl
  | some n =>
      refine copyOut_shift hd m t ?_
      split at hlen
      · exact Nat.le_of_eq (Option.some.inj hlen).symm
      · exact (RBOutput.copyLen_bounds hlen).1

end Shift

/-! ## Runs -/

section Runs

variable [Inhabited α]

/-- Calls in a row, in a build with or without overflow checks. -/
def runCallsIn (checked : Bool) (sh : RingShared) :
    List (RingCall α) → RingState α → Option (RingState α)
  | [], s => some s
  | c :: cs, s => (c.runIn checked sh s).bind (runCallsIn checked sh cs)

/-- A run with overflow checks is the run, as long as no call counts past
`usize::MAX`. -/
theorem runCallsIn_true_iff {sh : RingShared} {cs : List (RingCall α)} {s s' : RingState α} :
    runCallsIn true sh cs s = some s' ↔
      runCalls sh cs s = some s' ∧ Along sh (fun s c => ¬c.Carries sh s) cs s := by
  induction cs generalizing s with
  | nil => exact ⟨fun h => ⟨h, trivial⟩, fun h => h.1⟩
  | cons c cs ih =>
      rw [runCallsIn, runCalls, RingCall.runIn_eq, RingCall.run_eq, Along]
      by_cases hshort : c.Short sh
      · by_cases hcarry : c.Carries sh s
        · rw [if_neg fun h => h.2 ⟨rfl, hcarry⟩, Option.bind_none]
          simp [hcarry]
        · rw [if_pos ⟨hshort, fun h => hcarry h.2⟩, if_pos hshort, Option.bind_some,
            Option.bind_some, ih]
          constructor
          · rintro ⟨hrun, halong⟩
            refine ⟨hrun, hcarry, fun s1 hs1 => ?_⟩
            rw [RingCall.after_of_run hs1]
            exact halong
          · rintro ⟨hrun, -, halong⟩
            refine ⟨hrun, halong _ ?_⟩
            rw [RingCall.run_eq, if_pos hshort]
            rfl
      · rw [if_neg fun h => hshort h.1, if_neg hshort, Option.bind_none, Option.bind_none]
        simp

theorem runCalls_shift {sh : RingShared} {d : Usize} (hd : Laps sh d)
    (hdest : sh.hasPosDest = false) (cs : List (RingCall α)) (s : RingState α) :
    runCalls sh (cs.map (RingCall.shift d)) (RingState.shift d s) =
      (runCalls sh cs s).map (RingState.shift d) := by
  induction cs generalizing s with
  | nil => rfl
  | cons c cs ih =>
      rw [List.map_cons, runCalls, runCalls, RingCall.run_eq, RingCall.run_eq]
      by_cases hshort : c.Short sh
      · rw [if_pos (c.short_shift.mpr hshort), if_pos hshort, Option.bind_some,
          Option.bind_some, RingCall.after_shift hd hdest, ih]
      · rw [if_neg fun h => hshort (c.short_shift.mp h), if_neg hshort]
        rfl

theorem runCalls_short {sh : RingShared} {cs : List (RingCall α)} {s : RingState α}
    (hshort : ∀ c ∈ cs, c.Short sh) : ∃ s', runCalls sh cs s = some s' := by
  induction cs generalizing s with
  | nil => exact ⟨s, rfl⟩
  | cons c cs ih =>
      rw [runCalls, RingCall.run_eq, if_pos (hshort c List.mem_cons_self), Option.bind_some]
      exact ih fun c hc => hshort c (List.mem_cons_of_mem _ hc)

/-! ## Where the count runs over -/

/-- Slot `i` is ready once the packet is stored: it is one of its own, or it
was ready and is not in the hole the packet opens. -/
def ReadyThen (sh : RingShared) (s : RingState α) (ts : Usize) (n i : Nat) : Prop :=
  (s.2.valid = true ∧ i ∈ sh.walk ts n) ∨ (s.1.itemReady i = true ∧
    ¬(0 < wrapsub ts s.2.writingPos ∧ i ∈ forInRing sh.itemsSize s.2.writingPos ts))

/-- A packet meets or opens a hole, and once it is stored every slot is ready
from the readable position `r` (or from where the forced close leaves it) up
to the slot of `usize::MAX`, with the new writing position `w` beyond. -/
def RingCall.FillsToMax (sh : RingShared) (s : RingState α) : RingCall α → Prop
  | .write ts xs => (0 < wrapsub ts s.2.writingPos ∨ s.2.readablePos ≠ s.2.writingPos) ∧
      let w := RBInput.endAt s.2.writingPos (ts + BitVec.ofNat 64 xs.length)
      let r := RBInput.endAt s.2.readablePos (w - s.1.holeFixWait)
      0 < wrapsub w r ∧ 2 ^ 64 ≤ r.toNat + visits sh.itemsSize (wrapsub w r) ∧
        ∀ j, r.toNat + j < 2 ^ 64 →
          ReadyThen sh s ts xs.length (sh.slotAt (r + BitVec.ofNat 64 j))
  | .close _ => False

omit [Inhabited α] in
theorem markedHole_ready {sh : RingShared} {s : RingState α} (ts : Usize) (i : Nat) :
    (RBInput.markedHole sh s.1 s.2.writingPos ts).itemReady i = true ↔ s.1.itemReady i = true ∧
      ¬(0 < wrapsub ts s.2.writingPos ∧ i ∈ forInRing sh.itemsSize s.2.writingPos ts) := by
  rw [RBInput.markedHole]
  by_cases hg : wrapsub ts s.2.writingPos > 0
  · rw [if_pos hg, RBInput.foldl_clear_itemReady]
    by_cases hin : i ∈ forInRing sh.itemsSize s.2.writingPos ts
    · simp [hin, hg]
    · simp [hin]
  · simp [hg]

omit [Inhabited α] in
theorem readyThen_iff {sh : RingShared} {s : RingState α} (ts : Usize) (xs : List α) (i : Nat) :
    (RBInput.storedInput sh s.1 ts xs s.2).itemReady i = true ↔ ReadyThen sh s ts xs.length i := by
  rw [RBInput.storedInput, ReadyThen, ← markedHole_ready]
  cases hvalid : s.2.valid with
  | false => simp
  | true =>
      rw [if_pos rfl, RBInput.readied_itemReady]
      by_cases hmem : i ∈ sh.walk ts xs.length
      · simp [hmem]
      · simp [hmem]

omit [Inhabited α] in
theorem RingCall.carries_iff (sh : RingShared) (s : RingState α) (c : RingCall α) :
    c.Carries sh s ↔ c.FillsToMax sh s := by
  cases c with
  | close u => exact Iff.rfl
  | write ts xs =>
      have hhole : RBInput.findsHole ts s.2 = true ↔
          0 < wrapsub ts s.2.writingPos ∨ s.2.readablePos ≠ s.2.writingPos := by
        simp [RBInput.findsHole]
      show RBInput.findsHole ts s.2 = true ∧ _ ∧ _ ↔ _
      rw [hhole]
      refine and_congr_right fun _ => and_congr_right fun hpos => ?_
      obtain ⟨r, hr⟩ : ∃ r, r = RBInput.endAt s.2.readablePos
        (RBInput.endAt s.2.writingPos (ts + BitVec.ofNat 64 xs.length) - s.1.holeFixWait) := ⟨_, rfl⟩
      obtain ⟨w, hw⟩ : ∃ w, w =
        RBInput.endAt s.2.writingPos (ts + BitVec.ofNat 64 xs.length) := ⟨_, rfl⟩
      rw [← hr, ← hw] at hpos ⊢
      have hlen := sh.length_walk r (visits sh.itemsSize (wrapsub w r))
      have hlt := r.isLt
      rw [RBInput.Carries, sh.forInRing_wrapsub (Int.le_of_lt hpos)]
      constructor
      · intro hcarry
        have hrun := RBInput.readyRun_le (RBInput.storedInput sh s.1 ts xs s.2)
          (sh.walk r (visits sh.itemsSize (wrapsub w r)))
        refine ⟨by omega, fun j hj => (readyThen_iff ts xs _).mp ?_⟩
        refine @RBInput.ready_of_lt_readyRun _
          (sh.walk r (visits sh.itemsSize (wrapsub w r))) j _ (by omega) ?_
        rw [RingShared.walk, List.getElem?_map, List.getElem?_range (by omega)]
        rfl
      · rintro ⟨hfar, hready⟩
        have hrun := @RBInput.le_readyRun (RBInput.storedInput sh s.1 ts xs s.2)
          (sh.walk r (visits sh.itemsSize (wrapsub w r))) (2 ^ 64 - r.toNat)
          (by omega) fun j hj i hi => by
            rw [sh.walk_getElem? hi]
            exact (readyThen_iff ts xs _).mpr (hready j (by omega))
        omega

theorem Along.congr (sh : RingShared) {P Q : RingState α → RingCall α → Prop}
    (h : ∀ s c, P s c ↔ Q s c) (cs : List (RingCall α)) (s : RingState α) :
    Along sh P cs s ↔ Along sh Q cs s := by
  induction cs generalizing s with
  | nil => exact Iff.rfl
  | cons c cs ih =>
      rw [Along, Along, h s c]
      exact and_congr_right fun _ => forall_congr' fun s1 => forall_congr' fun _ => ih s1

/-! ## Translation -/

/-- The calls at the shifted times, from the shifted start, in a build with
overflow checks: they go through, the positions are shifted, and every read at
a shifted time is the read at the time. -/
def Translates (sh : RingShared) (startTime holeFixWait : Usize) (cs : List (RingCall α))
    (d : Usize) : Prop :=
  ∃ s s', runCalls sh cs (newOwned startTime holeFixWait) = some s ∧
    runCallsIn true sh (cs.map (RingCall.shift d)) (newOwned (startTime + d) holeFixWait) =
      some s' ∧
    s'.2.readablePos = s.2.readablePos + d ∧ s'.2.writingPos = s.2.writingPos + d ∧
    ∀ (t : Usize) (out : List α), ∃ r,
      (RBOutput.readAt sh t out).exec ringMem s.2 = some (r, s.2) ∧
      (RBOutput.readAt sh (t + d) out).exec ringMem s'.2 = some (r, s'.2)

/-- Ring arithmetic is invariant under translation by whole laps, except that a
build with overflow checks stops when a scan counts up to `usize::MAX` and one
more. -/
theorem translates_iff (length : Nat) (hlen : length ≤ 2 ^ 61) (startTime holeFixWait : Usize)
    (cs : List (RingCall α)) (hshort : ∀ c ∈ cs, c.Short (ownedShared length hlen)) (d : Usize)
    (hd : (ownedShared length hlen).itemsSize ∣ d.toNat) :
    Translates (ownedShared length hlen) startTime holeFixWait cs d ↔
      Along (ownedShared length hlen) (fun s c => ¬c.FillsToMax (ownedShared length hlen) s)
        (cs.map (RingCall.shift d)) (newOwned (startTime + d) holeFixWait) := by
  obtain ⟨sh, hsh⟩ : ∃ sh, sh = ownedShared length hlen := ⟨_, rfl⟩
  have hdest : sh.hasPosDest = false := by rw [hsh]; rfl
  rw [← hsh] at hshort hd ⊢
  have hstart : (newOwned (startTime + d) holeFixWait : RingState α) =
      RingState.shift d (newOwned startTime holeFixWait) := rfl
  have hcond := Along.congr sh (fun s c => not_congr (RingCall.carries_iff sh s c))
    (cs.map (RingCall.shift d)) (newOwned (startTime + d) holeFixWait : RingState α)
  rw [← hcond]
  obtain ⟨s, hrun⟩ := runCalls_short hshort (s := newOwned startTime holeFixWait)
  have hshift := runCalls_shift hd hdest cs (newOwned startTime holeFixWait)
  rw [← hstart, hrun, Option.map_some] at hshift
  constructor
  · rintro ⟨s₁, s', -, hrun', -⟩
    exact (runCallsIn_true_iff.mp hrun').2
  · intro halong
    refine ⟨s, RingState.shift d s, hrun, runCallsIn_true_iff.mpr ⟨hshift, halong⟩, rfl, rfl,
      fun t out => ?_⟩
    obtain ⟨out', r, hread, -⟩ := RBOutput.readAt_succeeds sh s.2 t out
    refine ⟨(out', r), hread, ?_⟩
    show (RBOutput.readAt sh (t + d) out).exec ringMem (s.2.shift d) = _
    rw [readAt_shift hd, hread]
    rfl

/-- A packet with a hole before it, at times that do not wrap. -/
def holeRun : List (RingCall Nat) := [.write 0 [10, 11], .write 3 [13, 14]]

theorem translates_iff_holeRun :
    Translates (ownedShared 4 (by decide)) 0 2 holeRun 8 ↔
      Along (ownedShared 4 (by decide)) (fun s c => ¬c.FillsToMax (ownedShared 4 (by decide)) s)
        (holeRun.map (RingCall.shift 8)) (newOwned (0 + 8) 2) :=
  translates_iff 4 (by decide) 0 2 holeRun (by decide) 8 (by decide)

/-- A lap earlier the two packets are at `usize::MAX - 3` and `usize::MAX`,
and the scan over the second counts two from there. -/
theorem holeRun_overflows :
    (runCallsIn true (ownedShared 4 (by decide)) (holeRun.map (RingCall.shift (-4)))
      (newOwned (0 + -4) 2)).isNone := by
  decide

theorem shifted_overflows :
    ¬∀ (cs : List (RingCall Nat)) (d : Usize),
      (∀ c ∈ cs, c.Short (ownedShared 4 (by decide))) →
      (ownedShared 4 (by decide)).itemsSize ∣ d.toNat →
      Translates (ownedShared 4 (by decide)) 0 2 cs d := by
  intro h
  obtain ⟨_, s', _, hrun, _⟩ := h holeRun (-4) (by decide) (by decide)
  have hnone := holeRun_overflows
  rw [hrun] at hnone
  cases hnone

end Runs

end Inferno
