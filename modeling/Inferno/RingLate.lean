import Inferno.RingPositions

/-!
# A late packet

A packet that ends at or before the writing position moves no writing
position and closes nothing: what it changes are the cells of its own slots.
A slot stands for one live time, so the packet overwrites audio of another
time exactly where it is more than a lap late and that time is readable
(`late_packet_iff`).
-/

namespace Inferno

open Serial

variable {α : Type}

/-! ## Reachable states -/

/-- `reset`: both positions start again, the items and their bits stay. -/
def RingMem.reset (m : RingMem α) (startTime : Usize) : RingMem α :=
  { m with writingPos := startTime, readablePos := startTime }

variable [Inhabited α]

/-- The states of an owned ring between two calls: it is fresh, it has been
called without a panic, or it has been reset. -/
inductive Reached (sh : RingShared) (holeFixWait : Usize) : RingState α → Prop
  | fresh (startTime : Usize) : Reached sh holeFixWait (newOwned startTime holeFixWait)
  | call {s s' : RingState α} {c : RingCall α} :
      Reached sh holeFixWait s → c.run sh s = some s' → Reached sh holeFixWait s'
  | reset {s : RingState α} (startTime : Usize) :
      Reached sh holeFixWait s → Reached sh holeFixWait (s.1, s.2.reset startTime)

theorem RingCall.after_valid (sh : RingShared) (c : RingCall α) (s : RingState α) :
    (c.after sh s).2.valid = s.2.valid := by
  cases c with
  | write ts xs =>
      show (RBInput.publishedMem sh _ (RBInput.findsHole ts s.2) _).valid = _
      cases RBInput.findsHole ts s.2 <;>
        simp [RBInput.publishedMem, RBInput.storedMem]
  | close u =>
      show (RBInput.filledMem sh _ u _).valid = _
      unfold RBInput.filledMem
      split <;> simp

theorem Reached.inv {sh : RingShared} {holeFixWait : Usize} {s : RingState α}
    (hwait : holeFixWait.toNat < 2 ^ 63) (hs : Reached sh holeFixWait s) :
    Ordered s ∧ s.1.holeFixWait = holeFixWait ∧ s.2.valid = true := by
  induction hs with
  | fresh startTime => exact ⟨ordered_newOwned _ _, rfl, rfl⟩
  | @call s _ c _ hrun ih =>
      obtain ⟨ho, hin, hvalid⟩ := ih
      obtain rfl := RingCall.after_of_run hrun
      have hin' := (RingCall.after_holeFixWait sh c s).trans hin
      obtain ⟨r, hmoves⟩ := RingCall.after_moves sh ho (by rw [hin]; exact hwait) c
      exact ⟨hmoves.ordered (by rw [hin']; exact hwait), hin',
        (RingCall.after_valid sh _ _).trans hvalid⟩
  | reset startTime _ ih =>
      obtain ⟨_, hin, hvalid⟩ := ih
      exact ⟨⟨by simp [RingMem.reset], by simp [RingMem.reset]⟩, hin, hvalid⟩

/-- Filling puts the default into the slots and nowhere else. -/
theorem RingShared.filled_at (sh : RingShared) (slots : List Nat) (i : Nat) (b : Nat → α) :
    slots.foldl (fun b k => Function.update b (k * sh.stride) default) b (i * sh.stride) =
      if i ∈ slots then default else b (i * sh.stride) := by
  induction slots generalizing b with
  | nil => simp
  | cons k slots ih =>
      rw [List.foldl_cons, ih]
      by_cases hi : i ∈ slots
      · simp [hi]
      · by_cases hk : i = k
        · simp [hk]
        · have hne : i * sh.stride ≠ k * sh.stride :=
            fun heq => hk (Nat.mul_right_cancel sh.stride_pos heq)
          simp [hi, hk, Function.update_of_ne hne]

/-- Closing puts the default into the slots that are not ready. -/
theorem RBInput.silenced_at (sh : RingShared) (inp : RBInput) (slots : List Nat) (i : Nat)
    (b : Nat → α) :
    silenced sh inp slots b (i * sh.stride) =
      if i ∈ slots ∧ ¬inp.itemReady i = true then default else b (i * sh.stride) := by
  have hfilter : silenced sh inp slots b =
      (slots.filter fun k => !inp.itemReady k).foldl
        (fun b k => Function.update b (k * sh.stride) default) b := by
    unfold silenced
    induction slots generalizing b with
    | nil => rfl
    | cons k slots ih =>
        rw [List.foldl_cons, ih]
        by_cases hk : inp.itemReady k = true <;> simp [hk]
  rw [hfilter, sh.filled_at]
  simp

/-! ## The cells of a packet -/

omit [Inhabited α] in
/-- The slots of a lap are different. -/
theorem RingShared.walk_nodup (sh : RingShared) {n : Nat} (hn : n ≤ sh.itemsSize) (t : Usize) :
    (sh.walk t n).Nodup := by
  refine List.Nodup.map_on ?_ List.nodup_range
  intro i hi j hj heq
  rw [List.mem_range] at hi hj
  rw [add_ofNat, add_ofNat, slotAt_offset, slotAt_offset] at heq
  have := slot_inj sh.itemsSize_pos heq (by omega) (by omega)
  omega

omit [Inhabited α] in
theorem RingShared.mem_walk (sh : RingShared) {t : Usize} {n i : Nat} :
    i ∈ sh.walk t n ↔ ∃ j < n, sh.slotAt (t + BitVec.ofNat 64 j) = i := by
  simp [walk]

namespace RBInput

omit [Inhabited α] in
theorem storedItems_of_not_mem (sh : RingShared) {slots : List Nat} {i : Nat}
    (hi : i ∉ slots) (xs : List α) (b : Nat → α) :
    storedItems sh slots xs b (i * sh.stride) = b (i * sh.stride) := by
  unfold storedItems
  induction slots generalizing xs b with
  | nil => rfl
  | cons k slots ih =>
      cases xs with
      | nil => rfl
      | cons x xs =>
          rw [List.mem_cons, not_or] at hi
          have hne : i * sh.stride ≠ k * sh.stride :=
            fun heq => hi.1 (Nat.mul_right_cancel sh.stride_pos heq)
          rw [List.zip_cons_cons, List.foldl_cons, ih hi.2, Function.update_of_ne hne]

omit [Inhabited α] in
theorem storedItems_getElem? (sh : RingShared) {slots : List Nat} (hnodup : slots.Nodup)
    {xs : List α} {j i : Nat} {x : α} (hi : slots[j]? = some i) (hx : xs[j]? = some x)
    (b : Nat → α) : storedItems sh slots xs b (i * sh.stride) = x := by
  induction slots generalizing xs j b with
  | nil => cases hi
  | cons k slots ih =>
      obtain ⟨hk, hnodup⟩ := List.nodup_cons.mp hnodup
      cases xs with
      | nil => cases hx
      | cons y xs =>
          have hstep : storedItems sh (k :: slots) (y :: xs) b =
              storedItems sh slots xs (Function.update b (k * sh.stride) y) := rfl
          rw [hstep]
          cases j with
          | zero =>
              obtain rfl : k = i := by simpa using hi
              obtain rfl : y = x := by simpa using hx
              rw [storedItems_of_not_mem sh hk, Function.update_self]
          | succ j => exact ih hnodup (by simpa using hi) (by simpa using hx) _

end RBInput

/-! ## The packet -/

section Late

variable {sh : RingShared} {s : RingState α} {ts : Usize} {xs : List α}

/-- The times `[writing_pos - N, readable_pos)`. -/
structure Live (sh : RingShared) (m : RingMem α) (t : Usize) : Prop where
  readable : 0 < wrapsub m.readablePos t
  kept : wrapsub m.writingPos m.readablePos + wrapsub m.readablePos t ≤ sh.itemsSize

/-- The times `[ts, ts + n)`. -/
def InPacket (ts : Usize) (n : Nat) (t : Usize) : Prop := 0 ≤ wrapsub t ts ∧ wrapsub t ts < n

/-- The write goes through, no position moves backwards, and the live times
outside the packet read as before. -/
def DamagesNothing (sh : RingShared) (s : RingState α) (ts : Usize) (xs : List α) : Prop :=
  ∃ s', (RingCall.write ts xs).run sh s = some s' ∧
    0 ≤ wrapsub s'.2.writingPos s.2.writingPos ∧
    0 ≤ wrapsub s'.2.readablePos s.2.readablePos ∧
    ∀ t, Live sh s.2 t → ¬InPacket ts xs.length t →
      RBOutput.sampleAt sh s'.2 t = RBOutput.sampleAt sh s.2 t

variable (sh) in
/-- What a late packet leaves behind: the cells of its slots, and a readable
position no further than the writing position. -/
theorem late_write (ho : Ordered s) (hwait : s.1.holeFixWait.toNat < 2 ^ 63)
    (hvalid : s.2.valid = true) (hlate : wrapsub ts s.2.writingPos + xs.length ≤ 0) :
    let m' := ((RingCall.write ts xs).after sh s).2
    m'.writingPos = s.2.writingPos ∧
      m'.buffer = RBInput.storedItems sh (sh.walk ts xs.length) xs s.2.buffer ∧
      0 ≤ wrapsub m'.readablePos s.2.readablePos ∧
      wrapsub m'.readablePos s.2.readablePos ≤ wrapsub s.2.writingPos s.2.readablePos := by
  have hlag := (fitsIsize_wrapsub s.2.writingPos s.2.readablePos).2
  have hend := wrapsub_add_ofNat
    (show wrapsub ts s.2.writingPos + xs.length < 2 ^ 63 by omega)
  obtain ⟨r, hmoves⟩ := RingCall.after_moves sh ho hwait (.write ts xs)
  have hfwd : (RingCall.write ts xs).forward s = 0 := by
    rw [RingCall.forward, hend, max_eq_left hlate]
  rw [hfwd] at hmoves
  have hread := hmoves.read_nonneg
  have hbehind := hmoves.behind
  have hsub := wrapsub_offset s.2.readablePos (a := r) (c := 0) ⟨by omega, by omega⟩
  rw [offset_zero, ← hmoves.reading] at hsub
  refine ⟨by rw [hmoves.writing, offset_zero], ?_, by omega, by omega⟩
  have hw : (RBInput.storedMem sh ts xs s.2).writingPos = s.2.writingPos := by
    show RBInput.endAt _ _ = _
    rw [RBInput.endAt, if_neg (by omega)]
  have hstored : (RBInput.storedMem sh ts xs s.2).buffer =
      RBInput.storedItems sh (sh.walk ts xs.length) xs s.2.buffer := if_pos hvalid
  have hin := RBInput.storedInput_holeFixWait sh s.1 ts xs s.2
  -- nothing is old enough to be closed
  have hclose : ¬wrapsub (s.2.writingPos - s.1.holeFixWait) s.2.readablePos > 0 := by
    have hbehind := ho.behind
    have hwait' := ho.wait
    have hpos : s.2.writingPos - s.1.holeFixWait = offset s.2.readablePos
        (wrapsub s.2.writingPos s.2.readablePos - s.1.holeFixWait.toNat) := by
      rw [← offset_sub, offset_wrapsub]
    have hback := wrapsub_offset s.2.readablePos
      (a := wrapsub s.2.writingPos s.2.readablePos - s.1.holeFixWait.toNat) (c := 0)
      ⟨by omega, by omega⟩
    rw [offset_zero, ← hpos] at hback
    omega
  show (RBInput.publishedMem sh (RBInput.storedInput sh s.1 ts xs s.2)
    (RBInput.findsHole ts s.2) (RBInput.storedMem sh ts xs s.2)).buffer = _
  cases RBInput.findsHole ts s.2 with
  | false => exact hstored
  | true =>
      simp only [RBInput.publishedMem, if_true, hw, hin]
      rw [RBInput.closedHoles, if_neg (show ¬wrapsub _ (RBInput.storedMem sh ts xs s.2).readablePos
        > 0 from hclose)]
      exact hstored

omit [Inhabited α] in
/-- A live time reads as its cell, wherever the readable position stands
between its old place and the writing position. -/
theorem Live.sampleAt [Inhabited α] (hown : sh.unconditionalRead = false) {m m' : RingMem α}
    (hbehind : 0 ≤ wrapsub m.writingPos m.readablePos) (hvalid : m'.valid = true) {t : Usize}
    (ht : Live sh m t) (hw : m'.writingPos = m.writingPos)
    (hr0 : 0 ≤ wrapsub m'.readablePos m.readablePos)
    (hr1 : wrapsub m'.readablePos m.readablePos ≤ wrapsub m.writingPos m.readablePos) :
    RBOutput.sampleAt sh m' t = some (m'.buffer (sh.slotAt t * sh.stride)) := by
  obtain ⟨hread, hkept⟩ := ht
  have hN := sh.itemsSize_le
  have hr : m'.readablePos =
      offset t (wrapsub m.readablePos t + wrapsub m'.readablePos m.readablePos) := by
    rw [← offset_add, offset_wrapsub, offset_wrapsub]
  have hw' : m'.writingPos =
      offset t (wrapsub m.readablePos t + wrapsub m.writingPos m.readablePos) := by
    rw [← offset_add, offset_wrapsub, offset_wrapsub, hw]
  have hrsub := wrapsub_offset t
    (a := wrapsub m.readablePos t + wrapsub m'.readablePos m.readablePos) (c := 0)
    ⟨by omega, by omega⟩
  have hwsub := wrapsub_offset t
    (a := wrapsub m.readablePos t + wrapsub m.writingPos m.readablePos) (c := 0)
    ⟨by omega, by omega⟩
  rw [offset_zero, ← hr] at hrsub
  rw [offset_zero, ← hw'] at hwsub
  rw [RBOutput.sampleAt_owned hown hvalid, if_pos ⟨by omega, by omega, by omega⟩]

/-- Of a packet that ends `k` or more before the end of a lap, item `j` has the
slot of the live time `t` outside the packet only if it is more than a lap
late. -/
theorem lap_late {t : Usize} {k g : Int} {j n : Nat} (hj : j < n) (hn : n < sh.itemsSize)
    (hk0 : 0 < k) (hkN : k ≤ sh.itemsSize) (hlow : -2 ^ 63 ≤ g) (hlate : g + n ≤ 0)
    (hslot : sh.slotAt t = sh.slotAt (offset t (k + g) + BitVec.ofNat 64 j)) :
    ¬InPacket (offset t (k + g)) n t ↔ g + j < -sh.itemsSize := by
  have hN := sh.itemsSize_le
  have hsub := wrapsub_offset t (a := 0) (c := k + g) ⟨by omega, by omega⟩
  rw [offset_zero] at hsub
  rw [offset_add_ofNat, slotAt_offset] at hslot
  have hslot0 : sh.slotAt t = slot sh.itemsSize t.toInt := by
    have := slotAt_offset sh t 0
    rwa [offset_zero, Int.add_zero] at this
  rw [hslot0] at hslot
  unfold InPacket
  rw [hsub]
  constructor
  · intro hout
    rcases Int.lt_trichotomy (k + g + j) 0 with hlt | heq | hgt
    · have := slot_lap sh.itemsSize_pos hslot (show t.toInt + (k + g + j) < t.toInt by omega)
      omega
    · omega
    · have := slot_lap sh.itemsSize_pos hslot.symm
        (show t.toInt < t.toInt + (k + g + j) by omega)
      omega
  · intro hold
    have := slot_lap sh.itemsSize_pos hslot (show t.toInt + (k + g + j) < t.toInt by omega)
    omega

end Late

/-- A late packet damages nothing but itself exactly if no item of it that is
more than a lap late falls on the slot of a live time, unless it is the very
sample already there. -/
theorem late_packet_iff (length : Nat) (hlen : length ≤ 2 ^ 61) (holeFixWait : Usize)
    (hwait : holeFixWait.toNat < 2 ^ 63) (s : RingState α)
    (hs : Reached (ownedShared length hlen) holeFixWait s) (ts : Usize) (xs : List α)
    (hshort : xs.length < (ownedShared length hlen).itemsSize)
    (hlate : wrapsub ts s.2.writingPos + xs.length ≤ 0) :
    DamagesNothing (ownedShared length hlen) s ts xs ↔
      ∀ (j : Nat) (hj : j < xs.length),
        wrapsub ts s.2.writingPos + j < -(ownedShared length hlen).itemsSize →
        ∀ t, Live (ownedShared length hlen) s.2 t →
          (ownedShared length hlen).slotAt t =
            (ownedShared length hlen).slotAt (ts + BitVec.ofNat 64 j) →
          s.2.buffer ((ownedShared length hlen).slotAt t * (ownedShared length hlen).stride) =
            xs[j] := by
  obtain ⟨ho, hin, hvalid⟩ := hs.inv hwait
  obtain ⟨sh, hsh⟩ : ∃ sh, sh = ownedShared length hlen := ⟨_, rfl⟩
  have hown : sh.unconditionalRead = false := by rw [hsh]; rfl
  rw [← hsh] at hshort ⊢
  have hlow := (fitsIsize_wrapsub ts s.2.writingPos).1
  obtain ⟨hw, hbuf, hr0, hr1⟩ := late_write sh ho (by rw [hin]; exact hwait) hvalid hlate
  have hrun : (RingCall.write ts xs).run sh s = some ((RingCall.write ts xs).after sh s) := by
    rw [RingCall.run_eq, if_pos (show (RingCall.write ts xs).Short sh from hshort)]
  have hvalid' : ((RingCall.write ts xs).after sh s).2.valid = true := by
    rw [RingCall.after_valid, hvalid]
  -- a live time `t`, with the packet and the positions seen from it
  have hlive : ∀ t, Live sh s.2 t →
      ts = offset t ((wrapsub s.2.readablePos t + wrapsub s.2.writingPos s.2.readablePos) +
        wrapsub ts s.2.writingPos) := fun t _ => by
    rw [← offset_add, ← offset_add, offset_wrapsub, offset_wrapsub, offset_wrapsub]
  have hbefore : ∀ t, Live sh s.2 t → RBOutput.sampleAt sh s.2 t =
      some (s.2.buffer (sh.slotAt t * sh.stride)) := fun t ht =>
    ht.sampleAt hown ho.behind hvalid rfl (by simp) (by simpa using ho.behind)
  have hafter : ∀ t, Live sh s.2 t →
      RBOutput.sampleAt sh ((RingCall.write ts xs).after sh s).2 t =
        some (RBInput.storedItems sh (sh.walk ts xs.length) xs s.2.buffer
          (sh.slotAt t * sh.stride)) := fun t ht => by
    rw [ht.sampleAt hown ho.behind hvalid' hw hr0 hr1, hbuf]
  have hlap : ∀ t, Live sh s.2 t → ∀ j < xs.length,
      sh.slotAt t = sh.slotAt (ts + BitVec.ofNat 64 j) →
        (¬InPacket ts xs.length t ↔ wrapsub ts s.2.writingPos + j < -sh.itemsSize) := by
    intro t ht j hj hslot
    have hts := hlive t ht
    have hbehind := ho.behind
    have hread := ht.readable
    have hkept := ht.kept
    rw [hts] at hslot
    have hiff := lap_late hj hshort (by omega) (by omega) hlow hlate hslot
    rwa [← hts] at hiff
  constructor
  · rintro ⟨s', hs', _, _, hreads⟩ j hj hold t ht hslot
    obtain rfl := RingCall.after_of_run hs'
    have hsame := hreads t ht ((hlap t ht j hj hslot).mpr hold)
    have hcell := RBInput.storedItems_getElem? sh
      (sh.walk_nodup (Nat.le_of_lt hshort) ts)
      (show (sh.walk ts xs.length)[j]? = some (sh.slotAt t) by
        simp [RingShared.walk, hj, hslot])
      (List.getElem?_eq_getElem hj) s.2.buffer
    rw [hbefore t ht, hafter t ht, hcell] at hsame
    exact (Option.some.inj hsame).symm
  · intro hcond
    refine ⟨_, hrun, by rw [hw]; simp, hr0, fun t ht hout => ?_⟩
    rw [hbefore t ht, hafter t ht]
    by_cases hmem : sh.slotAt t ∈ sh.walk ts xs.length
    · obtain ⟨j, hj, hslot⟩ := sh.mem_walk.mp hmem
      have hcell := RBInput.storedItems_getElem? sh
        (sh.walk_nodup (Nat.le_of_lt hshort) ts)
        (show (sh.walk ts xs.length)[j]? = some (sh.slotAt t) by
          simp [RingShared.walk, hj, hslot])
        (List.getElem?_eq_getElem hj) s.2.buffer
      rw [hcell, hcond j hj ((hlap t ht j hj hslot.symm).mp hout) t ht hslot.symm]
    · rw [RBInput.storedItems_of_not_mem sh hmem]

theorem late_packet_iff_fresh :
    DamagesNothing (ownedShared 16 (by decide)) (newOwned 0 3 : RingState Int) (-2) [7, 8] ↔
      ∀ (j : Nat) (hj : j < [7, 8].length),
        wrapsub (-2) (0 : Usize) + j < -(ownedShared 16 (by decide)).itemsSize →
        ∀ t, Live (ownedShared 16 (by decide)) (newOwned 0 3 : RingState Int).2 t →
          (ownedShared 16 (by decide)).slotAt t =
            (ownedShared 16 (by decide)).slotAt (-2 + BitVec.ofNat 64 j) →
          (0 : Int) = [7, 8][j] :=
  late_packet_iff 16 (by decide) 3 (by decide) (newOwned 0 3) (.fresh 0) (-2) [7, 8] (by decide)
    (by decide)

/-- A hole closed by the wait, and then its packet, a lap late. -/
def lateRun : List (RingCall Int) :=
  [.write 0 [-1, -1, -1, -1, -1, -1, -1, -1], .write 8 [-1, -1, -1, -1, -1, -1, -1, -1],
    .write 16 [0, 1], .write 20 [4, 5, 6, 7]]

theorem lateRun_reads :
    (runCalls (ownedShared 16 (by decide)) lateRun (newOwned 0 3)).bind (fun s =>
      RBOutput.sampleAt (ownedShared 16 (by decide)) s.2 18) = some 0 ∧
    (runCalls (ownedShared 16 (by decide)) (lateRun ++ [.write 2 [2, 3]]) (newOwned 0 3)).bind
      (fun s => RBOutput.sampleAt (ownedShared 16 (by decide)) s.2 18) = some 2 := by
  decide

theorem lateRun_positions :
    (runCalls (ownedShared 16 (by decide)) lateRun (newOwned 0 3)).map (fun s =>
      (s.2.readablePos, s.2.writingPos)) = some (24, 24) := by
  decide

theorem Reached.runCalls {sh : RingShared} {holeFixWait : Usize} {cs : List (RingCall α)}
    {s s' : RingState α} (hs : Reached sh holeFixWait s)
    (hrun : Inferno.runCalls sh cs s = some s') : Reached sh holeFixWait s' := by
  induction cs generalizing s with
  | nil => exact Option.some.inj hrun ▸ hs
  | cons c cs ih =>
      obtain ⟨s1, hc, hrest⟩ := Option.bind_eq_some_iff.mp hrun
      exact ih (hs.call hc) hrest

/-- The packet for times 2 and 3 stands in for the audio of times 18 and 19. -/
theorem late_packet_damages :
    ¬∀ (s : RingState Int) (ts : Usize) (xs : List Int),
      Reached (ownedShared 16 (by decide)) 3 s →
      xs.length < (ownedShared 16 (by decide)).itemsSize →
      wrapsub ts s.2.writingPos + xs.length ≤ 0 →
      DamagesNothing (ownedShared 16 (by decide)) s ts xs := by
  intro h
  obtain ⟨hbefore, hafter⟩ := lateRun_reads
  obtain ⟨s, hrun, hread⟩ := Option.bind_eq_some_iff.mp hbefore
  have hpos := lateRun_positions
  rw [hrun, Option.map_some, Option.some.injEq, Prod.mk.injEq] at hpos
  obtain ⟨hr, hw⟩ := hpos
  obtain ⟨s', hrun', _, _, hsame⟩ := h s 2 [2, 3] ((Reached.fresh 0).runCalls hrun) (by decide)
    (by rw [hw]; decide)
  have hlive : Live (ownedShared 16 (by decide)) s.2 18 :=
    ⟨by rw [hr]; decide, by rw [hr, hw]; decide⟩
  have hout : ¬InPacket 2 [(2 : Int), 3].length 18 := fun hin => absurd hin.2 (by decide)
  have heq := hsame 18 hlive hout
  rw [runCalls_append, hrun, Option.bind_some, Inferno.runCalls, hrun'] at hafter
  rw [hread] at heq
  rw [show RBOutput.sampleAt (ownedShared 16 (by decide)) s'.2 18 = some 2 from hafter] at heq
  revert heq
  decide

end Inferno
