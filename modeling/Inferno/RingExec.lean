import Inferno.RingReads

/-!
# The writer's calls as functions

Run alone, `write_from_at` and `close_items_until` are functions of the
writer's bits and the memory. Each program gets its function here, on every
memory, valid or not; `RingCall.run_eq` puts them together: a call panics
exactly if it writes a whole ring or more.
-/

namespace Inferno

variable {α : Type}

/-! ## Walks -/

namespace RingShared

variable (sh : RingShared)

/-- The slots of the `n` times from `t` on. -/
def walk (t : Usize) (n : Nat) : List Nat :=
  (List.range n).map fun j => sh.slotAt (t + BitVec.ofNat 64 j)

theorem length_walk (t : Usize) (n : Nat) : (sh.walk t n).length = n := by
  simp [walk]

theorem walk_lt (t : Usize) (n : Nat) : ∀ i ∈ sh.walk t n, i < sh.itemsSize := by
  intro i hi
  obtain ⟨j, _, rfl⟩ := List.mem_map.mp hi
  exact sh.slotAt_lt _

theorem walk_getElem? {t : Usize} {n j i : Nat} (h : (sh.walk t n)[j]? = some i) :
    i = sh.slotAt (t + BitVec.ofNat 64 j) := by
  obtain ⟨k, hk, rfl⟩ := Option.map_eq_some_iff.mp (List.getElem?_map ▸ h)
  obtain ⟨hlt, heq⟩ := List.getElem?_eq_some_iff.mp hk
  rw [List.getElem_range] at heq
  rw [heq]

theorem forInRing_short {n : Nat} (hn : n ≤ sh.itemsSize) (t : Usize) :
    forInRing sh.itemsSize t (t + BitVec.ofNat 64 n) = sh.walk t n := by
  have hle := sh.itemsSize_le
  have hvisits := visits_of_le (N := sh.itemsSize) (show (0 : Int) ≤ (n : Nat) by omega) (by omega)
  have hmod : n % 2 ^ 64 = n := Nat.mod_eq_of_lt (by omega)
  rw [forInRing_add, hmod, walk]
  congr 2
  omega

/-- The walk from `t` to a later `u`. -/
theorem forInRing_wrapsub {t u : Usize} (h : 0 ≤ wrapsub u t) :
    forInRing sh.itemsSize t u = sh.walk t (visits sh.itemsSize (wrapsub u t)) := by
  have hsub := Serial.toNat_sub u t
  rw [if_pos (show 0 ≤ Serial.sdiff u t from h)] at hsub
  have hmod : (u - t).toNat % 2 ^ 64 = (u - t).toNat := Nat.mod_eq_of_lt (u - t).isLt
  have hwalk := sh.forInRing_add t (u - t).toNat
  rw [Serial.add_toNat_sub, hmod, hsub] at hwalk
  exact hwalk

theorem forInRing_lt (t u : Usize) : ∀ i ∈ forInRing sh.itemsSize t u, i < sh.itemsSize := by
  have hwalk := sh.forInRing_add t (u - t).toNat
  rw [Serial.add_toNat_sub] at hwalk
  rw [hwalk]
  intro i hi
  obtain ⟨j, _, rfl⟩ := List.mem_map.mp hi
  exact sh.slotAt_lt _

end RingShared

namespace RBInput

variable (sh : RingShared) (inp : RBInput)

/-! ## Marking and opening -/

/-- The bits after the hole before `ts` is marked. -/
def markedHole (w ts : Usize) : RBInput :=
  if wrapsub ts w > 0 then
    (forInRing sh.itemsSize w ts).foldl (fun r i => r.setReady i false) inp
  else inp

theorem markHole_exec (ts : Usize) (m : RingMem α) :
    (markHole sh inp ts).exec ringMem m =
      some ((markedHole sh inp m.writingPos ts, decide (wrapsub ts m.writingPos > 0)), m) := by
  show Prog.exec ringMem (if wrapsub ts m.writingPos > 0 then _ else _) m = _
  unfold markedHole
  by_cases hg : wrapsub ts m.writingPos > 0
  · rw [if_pos hg, if_pos hg, decide_eq_true hg]
    rfl
  · rw [if_neg hg, if_neg hg, decide_eq_false hg]
    rfl

/-- The writing position after a packet that ends at `endTs`. -/
def endAt (w endTs : Usize) : Usize := if wrapsub endTs w > 0 then endTs else w

theorem publishWriting_exec (endTs : Usize) (m : RingMem α) :
    (publishWriting endTs).exec ringMem m =
      some ((), { m with writingPos := endAt m.writingPos endTs }) := by
  show Prog.exec ringMem (if wrapsub endTs m.writingPos > 0 then _ else _) m = _
  unfold endAt
  split <;> rfl

/-! ## Storing -/

/-- The bits after `slots` are written. -/
def readied (slots : List Nat) (inp : RBInput) : RBInput :=
  slots.foldl (fun r i => r.setReady i true) inp

theorem readied_itemReady (slots : List Nat) (i : Nat) :
    (readied slots inp).itemReady i = if i ∈ slots then true else inp.itemReady i := by
  unfold readied
  induction slots generalizing inp with
  | nil => simp
  | cons k slots ih =>
      rw [List.foldl_cons, ih]
      by_cases hi : i ∈ slots
      · simp [hi]
      · by_cases hk : i = k
        · simp [hk, setReady]
        · simp [hi, hk, setReady]

/-- The buffer after `xs` is stored to `slots`. -/
def storedItems (sh : RingShared) (slots : List Nat) (xs : List α) (b : Nat → α) : Nat → α :=
  (slots.zip xs).foldl (fun b p => Function.update b (p.1 * sh.stride) p.2) b

theorem foldlM_writeItem_exec {slots : List Nat} (hslots : ∀ i ∈ slots, i < sh.itemsSize)
    {xs : List α} (hlen : slots.length = xs.length) (ts : Usize) (m : RingMem α) :
    ∃ ts', (slots.foldlM (writeItem sh) (inp, xs, ts)).exec ringMem m =
      some ((readied slots inp, [], ts'),
        { m with buffer := storedItems sh slots xs m.buffer }) := by
  induction slots generalizing inp xs ts m with
  | nil =>
      obtain rfl : xs = [] := List.length_eq_zero_iff.mp hlen.symm
      exact ⟨ts, rfl⟩
  | cons i slots ih =>
      cases xs with
      | nil => cases hlen
      | cons x xs =>
          have hcell := sh.slot_in_buffer (hslots i List.mem_cons_self)
          have hitem : (writeItem sh (inp, x :: xs, ts) i).exec ringMem m =
              some ((inp.setReady i true, xs, ts + 1),
                { m with buffer := Function.update m.buffer (i * sh.stride) x }) := by
            simp only [writeItem, RingAct.storeItem, if_pos hcell]
            rfl
          obtain ⟨ts', hrest⟩ := ih (inp.setReady i true)
            (fun i hi => hslots i (List.mem_cons_of_mem _ hi)) (Nat.succ.inj hlen) (ts + 1)
            { m with buffer := Function.update m.buffer (i * sh.stride) x }
          refine ⟨ts', ?_⟩
          rw [List.foldlM_cons, Prog.exec_bind_of hitem]
          exact hrest

theorem writeItems_exec {xs : List α} (hn : xs.length < sh.itemsSize) (ts : Usize)
    (m : RingMem α) :
    (writeItems sh inp ts (ts + BitVec.ofNat 64 xs.length) xs).exec ringMem m =
      some (if m.valid then
          (readied (sh.walk ts xs.length) inp,
            { m with buffer := storedItems sh (sh.walk ts xs.length) xs m.buffer })
        else (inp, m)) := by
  show Prog.exec ringMem (if m.valid = true then _ else _) m = _
  by_cases hvalid : m.valid = true
  · rw [if_pos hvalid, if_pos hvalid, sh.forInRing_short (Nat.le_of_lt hn)]
    obtain ⟨ts', hstore⟩ := foldlM_writeItem_exec sh inp (sh.walk_lt ts xs.length)
      (sh.length_walk ts xs.length) ts m
    rw [Prog.exec_bind_of hstore]
    rfl
  · rw [if_neg hvalid, if_neg hvalid]
    rfl

/-! ## Closing -/

/-- The buffer after the slots without their bit are put to the default. -/
def silenced [Inhabited α] (slots : List Nat) (b : Nat → α) : Nat → α :=
  slots.foldl (fun b i => if inp.itemReady i then b else Function.update b (i * sh.stride) default) b

theorem foldlM_closeHole_exec [Inhabited α] {slots : List Nat}
    (hslots : ∀ i ∈ slots, i < sh.itemsSize) (hole : Bool) (m : RingMem α) :
    (slots.foldlM (closeHole sh inp) hole).exec ringMem m =
      some (hole || slots.any fun i => !inp.itemReady i,
        { m with buffer := silenced sh inp slots m.buffer }) := by
  induction slots generalizing hole m with
  | nil => simp [silenced]
  | cons i slots ih =>
      have hrest := fun hole => ih (fun i hi => hslots i (List.mem_cons_of_mem _ hi)) hole
      rw [List.foldlM_cons]
      by_cases hready : inp.itemReady i = true
      · have hclose : (closeHole sh inp hole i).exec ringMem m = some (hole, m) := by
          rw [closeHole, if_pos hready]
          rfl
        rw [Prog.exec_bind_of hclose, hrest]
        simp [silenced, hready]
      · have hclose : (closeHole sh inp hole i).exec ringMem m =
            some (true, { m with buffer := Function.update m.buffer (i * sh.stride) default }) := by
          rw [closeHole, if_neg hready, RingAct.storeItem,
            if_pos (sh.slot_in_buffer (hslots i List.mem_cons_self))]
          rfl
        rw [Prog.exec_bind_of hclose, hrest]
        simp [silenced, hready]

/-- The slots a close up to `c` looks at. -/
def closingSlots (c : Usize) (m : RingMem α) : List Nat :=
  if m.valid then forInRing sh.itemsSize m.readablePos c else []

/-- The memory after closing up to `c`. -/
def closedHoles [Inhabited α] (c : Usize) (m : RingMem α) : RingMem α :=
  if wrapsub c m.readablePos > 0 then
    { readablePos := c
      writingPos := m.writingPos
      holesCount :=
        if (closingSlots sh c m).any (fun i => !inp.itemReady i) then m.holesCount + 1
        else m.holesCount
      buffer := silenced sh inp (closingSlots sh c m) m.buffer
      valid := m.valid
      reported := m.reported }
  else m

theorem closeHoles_exec [Inhabited α] (c : Usize) (m : RingMem α) :
    (closeHoles sh inp c).exec ringMem m = some ((), closedHoles sh inp c m) := by
  show Prog.exec ringMem (if wrapsub c m.readablePos > 0 then _ else _) m = _
  unfold closedHoles
  by_cases hc : wrapsub c m.readablePos > 0
  · rw [if_pos hc, if_pos hc]
    have hdefault : (defaultHoles sh inp c).exec ringMem m =
        some ((closingSlots sh c m).any (fun i => !inp.itemReady i),
          { m with buffer := silenced sh inp (closingSlots sh c m) m.buffer }) := by
      unfold closingSlots
      show Prog.exec ringMem (if m.valid = true then _ else _) m = _
      by_cases hvalid : m.valid = true
      · rw [if_pos hvalid, if_pos hvalid]
        refine (foldlM_closeHole_exec sh inp (sh.forInRing_lt _ _) false m).trans ?_
        rw [Bool.false_or]
        rfl
      · rw [if_neg hvalid, if_neg hvalid]
        rfl
    rw [Prog.exec_bind_of hdefault]
    cases (closingSlots sh c m).any (fun i => !inp.itemReady i) <;> rfl
  · rw [if_neg hc, if_neg hc]
    rfl

/-! ## Scanning -/

/-- How many of the slots the scan passes. -/
def readyRun (slots : List Nat) : Nat := (slots.takeWhile inp.itemReady).length

@[simp] theorem readyRun_nil : inp.readyRun [] = 0 := rfl

theorem readyRun_cons_ready {i : Nat} (hi : inp.itemReady i = true) (slots : List Nat) :
    inp.readyRun (i :: slots) = inp.readyRun slots + 1 := by
  rw [readyRun, List.takeWhile_cons_of_pos hi, List.length_cons]
  rfl

theorem readyRun_cons_clear {i : Nat} (hi : ¬inp.itemReady i = true) (slots : List Nat) :
    inp.readyRun (i :: slots) = 0 := by
  rw [readyRun, List.takeWhile_cons_of_neg hi]
  rfl

theorem foldl_countReady_stopped (slots : List Nat) (p : Usize) :
    (slots.foldl (countReady inp) (false, p)).2 = p := by
  induction slots with
  | nil => rfl
  | cons i slots ih => exact ih

theorem foldl_countReady_eq (slots : List Nat) (p : Usize) :
    (slots.foldl (countReady inp) (true, p)).2 = p + BitVec.ofNat 64 (inp.readyRun slots) := by
  induction slots generalizing p with
  | nil => simp
  | cons i slots ih =>
      by_cases hready : inp.itemReady i = true
      · rw [List.foldl_cons, readyRun_cons_ready inp hready]
        simp only [countReady, hready, if_true, Bool.not_true, Bool.false_eq_true, if_false]
        rw [ih, BitVec.add_assoc, BitVec.add_comm 1, BitVec.ofNat_add]
        rfl
      · rw [List.foldl_cons, readyRun_cons_clear inp hready]
        simp only [countReady, hready]
        simpa using foldl_countReady_stopped inp slots p

theorem readyRun_le (slots : List Nat) : inp.readyRun slots ≤ slots.length :=
  (List.takeWhile_sublist _).length_le

/-- The scan passes at least the slots that are all ready. -/
theorem le_readyRun {slots : List Nat} {c : Nat} (hc : c ≤ slots.length)
    (hready : ∀ j < c, ∀ i, slots[j]? = some i → inp.itemReady i = true) :
    c ≤ inp.readyRun slots := by
  induction slots generalizing c with
  | nil => exact hc
  | cons i slots ih =>
      cases c with
      | zero => exact Nat.zero_le _
      | succ c =>
          have hi := hready 0 (Nat.succ_pos c) i rfl
          have hrest := ih (Nat.le_of_succ_le_succ hc) fun j hj i hi =>
            hready (j + 1) (Nat.succ_lt_succ hj) i (by simpa using hi)
          rw [readyRun_cons_ready inp hi]
          exact Nat.succ_le_succ hrest

theorem ready_of_lt_readyRun {slots : List Nat} {j i : Nat} (hj : j < inp.readyRun slots)
    (hi : slots[j]? = some i) : inp.itemReady i = true := by
  induction slots generalizing j with
  | nil => cases hi
  | cons k slots ih =>
      by_cases hk : inp.itemReady k = true
      · rw [readyRun_cons_ready inp hk] at hj
        cases j with
        | zero =>
            obtain rfl : k = i := by simpa using hi
            exact hk
        | succ j => exact ih (Nat.lt_of_succ_lt_succ hj) (by simpa using hi)
      · rw [readyRun_cons_clear inp hk] at hj
        cases hj

/-- Where the scan from `r` up to `e` ends. -/
def scannedTo (r e : Usize) : Usize :=
  if wrapsub e r > 0 then r + BitVec.ofNat 64 (inp.readyRun (forInRing sh.itemsSize r e)) else r

theorem checkHoles_exec (e : Usize) (m : RingMem α) :
    (checkHoles sh inp e).exec ringMem m =
      some ((), { m with readablePos := scannedTo sh inp m.readablePos e }) := by
  show Prog.exec ringMem (if wrapsub e m.readablePos > 0 then _ else _) m = _
  unfold scannedTo
  by_cases he : wrapsub e m.readablePos > 0
  · rw [if_pos he, if_pos he, ← foldl_countReady_eq]
    rfl
  · rw [if_neg he, if_neg he]
    rfl

/-! ## Whole calls -/

/-- The memory after the readable position is brought up to date. -/
def publishedMem [Inhabited α] (hole : Bool) (m : RingMem α) : RingMem α :=
  if hole then
    let m' := closedHoles sh inp (m.writingPos - inp.holeFixWait) m
    { m' with readablePos := scannedTo sh inp m'.readablePos m.writingPos }
  else { m with readablePos := m.writingPos }

theorem publishReadable_exec [Inhabited α] (hole : Bool) (m : RingMem α) :
    (publishReadable sh inp hole).exec ringMem m = some ((), publishedMem sh inp hole m) := by
  cases hole with
  | false => rfl
  | true =>
      have hclose := closeHoles_exec sh inp (m.writingPos - inp.holeFixWait) m
      have hscan := checkHoles_exec sh inp m.writingPos
        (closedHoles sh inp (m.writingPos - inp.holeFixWait) m)
      exact (Prog.exec_bind_of hclose).trans hscan

def committedMem (m : RingMem α) : RingMem α :=
  { m with reported := if sh.hasPosDest then m.readablePos else m.reported }

theorem commitReadablePos_exec (m : RingMem α) :
    (commitReadablePos sh).exec ringMem m = some ((), committedMem sh m) := by
  unfold commitReadablePos committedMem
  split <;> rfl

/-- The bits after a packet is stored. -/
def storedInput (ts : Usize) (xs : List α) (m : RingMem α) : RBInput :=
  if m.valid then readied (sh.walk ts xs.length) (markedHole sh inp m.writingPos ts)
  else markedHole sh inp m.writingPos ts

/-- The memory after a packet is stored, before its positions are published. -/
def storedMem (ts : Usize) (xs : List α) (m : RingMem α) : RingMem α :=
  { m with
    writingPos := endAt m.writingPos (ts + BitVec.ofNat 64 xs.length)
    buffer :=
      if m.valid then storedItems sh (sh.walk ts xs.length) xs m.buffer else m.buffer }

/-- "Do we have a new hole?" or "Did we have a hole before current invocation?" -/
def findsHole (ts : Usize) (m : RingMem α) : Bool :=
  decide (wrapsub ts m.writingPos > 0) || m.readablePos != m.writingPos

/-- The writer and its memory after `write_from_at`. -/
def wrote [Inhabited α] (ts : Usize) (xs : List α) (m : RingMem α) : RBInput × RingMem α :=
  (storedInput sh inp ts xs m,
    committedMem sh (publishedMem sh (storedInput sh inp ts xs m) (findsHole ts m)
      (storedMem sh ts xs m)))

/-- `write_from_at` up to the stores, and any rest of it. -/
theorem writeItems_then {β : Type} {xs : List α} (hn : xs.length < sh.itemsSize) (ts : Usize)
    (m : RingMem α) (f : RBInput → Bool → RingProg α β) :
    Prog.exec ringMem (do
      Prog.assert (xs.length < sh.itemsSize)
      let (inp, newHole) ← markHole sh inp ts
      let r ← RingAct.loadReadable
      let w ← RingAct.loadWriting
      publishWriting (ts + BitVec.ofNat 64 xs.length)
      let inp ← writeItems sh inp ts (ts + BitVec.ofNat 64 xs.length) xs
      f inp (newHole || r != w)) m =
    (f (storedInput sh inp ts xs m) (findsHole ts m)).exec ringMem (storedMem sh ts xs m) := by
  have hstore : (writeItems sh (markedHole sh inp m.writingPos ts) ts
      (ts + BitVec.ofNat 64 xs.length) xs).exec ringMem
        { m with writingPos := endAt m.writingPos (ts + BitVec.ofNat 64 xs.length) } =
      some (storedInput sh inp ts xs m, storedMem sh ts xs m) := by
    rw [writeItems_exec sh _ hn]
    unfold storedInput storedMem
    cases m.valid <;> rfl
  rw [Prog.bind_eq, Prog.assert_bind hn, Prog.exec_bind_of (markHole_exec sh inp ts m)]
  show Prog.exec ringMem (publishWriting (ts + BitVec.ofNat 64 xs.length) >>= fun _ => _) m = _
  rw [Prog.exec_bind_of (publishWriting_exec _ m), Prog.exec_bind_of hstore]
  rfl

theorem writeFromAt_exec [Inhabited α] {xs : List α} (hn : xs.length < sh.itemsSize) (ts : Usize)
    (m : RingMem α) :
    (writeFromAt sh inp ts xs).exec ringMem m =
      some (((wrote sh inp ts xs m).1, (wrote sh inp ts xs m).2.readablePos),
        (wrote sh inp ts xs m).2) := by
  refine (writeItems_then sh inp hn ts m fun inp hole => do
    publishReadable sh inp hole
    commitReadablePos sh
    let r ← RingAct.loadReadable
    pure (inp, r)).trans ?_
  refine (Prog.exec_bind_of (publishReadable_exec sh _ (findsHole ts m) _)).trans ?_
  exact Prog.exec_bind_of (commitReadablePos_exec sh _)

/-- The memory after not-yet-touched items up to `need` are filled. -/
def filledMem [Inhabited α] (untilPos need : Usize) (m : RingMem α) : RingMem α :=
  if need != untilPos then
    { m with
      writingPos := need
      buffer :=
        if m.valid then
          (forInRing sh.itemsSize untilPos need).foldl
            (fun b i => Function.update b (i * sh.stride) default) m.buffer
        else m.buffer
      readablePos := need }
  else m

theorem fillUntil_exec [Inhabited α] (untilPos need : Usize) (m : RingMem α) :
    (fillUntil sh untilPos need).exec ringMem m = some ((), filledMem sh untilPos need m) := by
  have hslots : ∀ (slots : List Nat), (∀ i ∈ slots, i < sh.itemsSize) → ∀ m : RingMem α,
      (slots.foldlM (fillSlot sh) ()).exec ringMem m = some ((), { m with
        buffer := slots.foldl (fun b i => Function.update b (i * sh.stride) default) m.buffer }) := by
    intro slots
    induction slots with
    | nil => exact fun _ _ => rfl
    | cons i slots ih =>
        intro hlt m
        rw [List.foldlM_cons, fillSlot, RingAct.storeItem,
          if_pos (sh.slot_in_buffer (hlt i List.mem_cons_self))]
        exact ih (fun i hi => hlt i (List.mem_cons_of_mem _ hi)) _
  unfold fillUntil filledMem
  by_cases hne : (need != untilPos) = true
  · rw [if_pos hne, if_pos hne]
    have hfill : (fillSlots sh untilPos need).exec ringMem { m with writingPos := need } =
        some ((), { m with
          writingPos := need
          buffer :=
            if m.valid then
              (forInRing sh.itemsSize untilPos need).foldl
                (fun b i => Function.update b (i * sh.stride) default) m.buffer
            else m.buffer }) := by
      show Prog.exec ringMem (if m.valid = true then _ else _) _ = _
      by_cases hvalid : m.valid = true
      · rw [if_pos hvalid, if_pos hvalid]
        exact hslots _ (sh.forInRing_lt _ _) _
      · rw [if_neg hvalid, if_neg hvalid]
        rfl
    exact Prog.exec_bind_of hfill
  · rw [if_neg hne, if_neg hne]
    rfl

/-- Where a close up to `u` stops looking for holes. -/
def closeEnd (w u : Usize) : Usize := if wrapsub u w > 0 then w else u

/-- The memory after `close_items_until`. -/
def closedMem [Inhabited α] (u : Usize) (m : RingMem α) : RingMem α :=
  let m1 := closedHoles sh inp (closeEnd m.writingPos u) m
  let m2 := { m1 with readablePos := scannedTo sh inp m1.readablePos (closeEnd m.writingPos u) }
  committedMem sh (filledMem sh (closeEnd m.writingPos u) u m2)

theorem closeItemsUntil_exec [Inhabited α] (u : Usize) (m : RingMem α) :
    (closeItemsUntil sh inp u).exec ringMem m = some ((), closedMem sh inp u m) := by
  have hclose := closeHoles_exec sh inp (closeEnd m.writingPos u) m
  have hscan := checkHoles_exec sh inp (closeEnd m.writingPos u)
    (closedHoles sh inp (closeEnd m.writingPos u) m)
  refine (Prog.exec_bind_of ((Prog.exec_bind_of hclose).trans hscan)).trans ?_
  refine (Prog.exec_bind_of (fillUntil_exec sh (closeEnd m.writingPos u) u _)).trans ?_
  exact commitReadablePos_exec sh _

end RBInput

/-! ## Calls -/

namespace RingCall

variable [Inhabited α]

/-- The assertion of `write_from_at`. -/
def Short (sh : RingShared) : RingCall α → Prop
  | write _ xs => xs.length < sh.itemsSize
  | close _ => True

instance (sh : RingShared) : (c : RingCall α) → Decidable (c.Short sh)
  | write _ xs => inferInstanceAs (Decidable (xs.length < sh.itemsSize))
  | close _ => isTrue trivial

/-- The state after a call. -/
def after (sh : RingShared) (s : RingState α) : RingCall α → RingState α
  | write ts xs => RBInput.wrote sh s.1 ts xs s.2
  | close u => (s.1, RBInput.closedMem sh s.1 u s.2)

theorem run_eq (sh : RingShared) (c : RingCall α) (s : RingState α) :
    c.run sh s = if c.Short sh then some (c.after sh s) else none := by
  cases c with
  | write ts xs =>
      by_cases hn : xs.length < sh.itemsSize
      · rw [if_pos (show Short sh (write ts xs) from hn)]
        exact Prog.exec_bind_of (RBInput.writeFromAt_exec sh s.1 hn ts s.2)
      · rw [if_neg (show ¬Short sh (write ts xs) from hn)]
        show Prog.exec ringMem ((Prog.assert _).bind _ >>= _) _ = _
        simp only [Prog.assert, if_neg hn, Prog.fail_bind, Prog.bind_eq, Prog.exec_fail]
  | close u =>
      rw [if_pos (show Short sh (close u) from trivial)]
      exact Prog.exec_bind_of (RBInput.closeItemsUntil_exec sh s.1 u s.2)

end RingCall

end Inferno
