import Inferno.ReceiverThread
import Inferno.RingRecovery

/-!
# What closing leaves of a ring

A disconnected channel's ring is closed tick after tick until the clock is
one and a half rings past the disconnect. A tick fills the slots from the
writing position up to its time, but of a step of more than a ring only the
remainder: `covered` counts what the ticks fill, and the slots they fill are
the first `covered` ones from the writing position on (`mem_filled`). What is
left out keeps its old audio unless it was a hole (`silenced_iff`); steps of at
most a ring leave nothing out (`silenced_of_short_steps`).
-/

namespace Inferno

open Serial

variable {α : Type} [Inhabited α]

/-! ## One close -/

namespace RBInput

variable (sh : RingShared) (inp : RBInput)

/-- The slots a close up to `u` fills. -/
def filledSlots (w u : Usize) : List Nat :=
  if wrapsub u w > 0 then forInRing sh.itemsSize w u else []

/-- The slots a close up to `u` searches for holes. -/
def searchedSlots (r w u : Usize) : List Nat :=
  if wrapsub (closeEnd w u) r > 0 then forInRing sh.itemsSize r (closeEnd w u) else []

/-- Where a close up to `u` leaves the readable position. -/
def readableEnd (r w u : Usize) : Usize := if wrapsub u w > 0 then u else endAt r u

omit [Inhabited α] in
theorem endAt_le (r u : Usize) : wrapsub u (endAt r u) ≤ 0 := by
  unfold endAt
  split
  · simp
  · omega

omit [Inhabited α] in
/-- Nothing is left to scan after a close. -/
theorem scannedTo_endAt (r u : Usize) : scannedTo sh inp (endAt r u) u = endAt r u := by
  have := endAt_le r u
  rw [scannedTo, if_neg (by omega)]

theorem closedMem_writingPos (u : Usize) (m : RingMem α) :
    (closedMem sh inp u m).writingPos = endAt m.writingPos u := by
  rw [closedMem, committedMem_writingPos, filledMem]
  unfold closeEnd endAt
  split
  · next hpos =>
      have hne : u ≠ m.writingPos := by
        rintro rfl
        simp at hpos
      simp [hne]
  · simp

theorem closedMem_readablePos (u : Usize) (m : RingMem α) :
    (closedMem sh inp u m).readablePos = readableEnd m.readablePos m.writingPos u := by
  rw [closedMem, committedMem_readablePos, filledMem]
  unfold closeEnd readableEnd
  split
  · next hpos =>
      have hne : u ≠ m.writingPos := by
        rintro rfl
        simp at hpos
      simp [hne]
  · simp [closedHoles_readablePos, scannedTo_endAt]

/-- What a close does to a slot. -/
theorem closedMem_at (u : Usize) (m : RingMem α) (i : Nat) :
    (closedMem sh inp u m).buffer (i * sh.stride) =
      if m.valid = true ∧ (i ∈ filledSlots sh m.writingPos u ∨
          i ∈ searchedSlots sh m.readablePos m.writingPos u ∧ ¬inp.itemReady i = true)
      then default else m.buffer (i * sh.stride) := by
  have hholes : (closedHoles sh inp (closeEnd m.writingPos u) m).buffer (i * sh.stride) =
      if m.valid = true ∧ i ∈ searchedSlots sh m.readablePos m.writingPos u ∧
          ¬inp.itemReady i = true
      then default else m.buffer (i * sh.stride) := by
    unfold closedHoles searchedSlots closingSlots
    split
    · cases m.valid <;> simp [silenced_at]
    · simp
  show (filledMem sh _ u _).buffer _ = _
  unfold filledMem filledSlots
  by_cases hpos : wrapsub u m.writingPos > 0
  · have hne : u ≠ m.writingPos := by
      rintro rfl
      simp at hpos
    have hend : closeEnd m.writingPos u = m.writingPos := if_pos hpos
    rw [hend] at hholes ⊢
    by_cases hvalid : m.valid = true
    · simp only [bne_iff_ne, ne_eq, hne, not_false_eq_true, if_true, hvalid, closedHoles_valid,
        sh.filled_at, hholes, hpos, true_and]
      rw [← ite_or]
    · simp [hne, hvalid, hholes]
  · have hend : closeEnd m.writingPos u = u := if_neg hpos
    rw [hend] at hholes ⊢
    simp [hholes, hpos]

end RBInput

/-! ## Tick after tick -/

/-- A ring that is closed at each of the ticks. -/
def closes (sh : RingShared) (ticks : List Clock) (s : RingState α) : RingState α :=
  ticks.foldl (fun s ts => RingCall.after sh s (.close ts)) s

/-- The slots the ticks fill. -/
def filled (sh : RingShared) : Usize → List Clock → List Nat
  | _, [] => []
  | w, ts :: ticks => RBInput.filledSlots sh w ts ++ filled sh (RBInput.endAt w ts) ticks

/-- The slots the ticks search for holes. -/
def searched (sh : RingShared) : Usize → Usize → List Clock → List Nat
  | _, _, [] => []
  | r, w, ts :: ticks =>
      RBInput.searchedSlots sh r w ts ++
        searched sh (RBInput.readableEnd r w ts) (RBInput.endAt w ts) ticks

/-- How many slots the ticks fill, each step of a tick counted for itself. -/
def covered (N : Nat) : Usize → List Clock → Nat
  | _, [] => 0
  | w, ts :: ticks =>
      if wrapsub ts w > 0 then visits N (wrapsub ts w) + covered N ts ticks
      else covered N w ticks

/-- What the ticks do to a slot. -/
theorem closes_at (sh : RingShared) (ticks : List Clock) (s : RingState α) (i : Nat) :
    (closes sh ticks s).2.buffer (i * sh.stride) =
      if s.2.valid = true ∧ (i ∈ filled sh s.2.writingPos ticks ∨
          i ∈ searched sh s.2.readablePos s.2.writingPos ticks ∧ ¬s.1.itemReady i = true)
      then default else s.2.buffer (i * sh.stride) := by
  induction ticks generalizing s with
  | nil => simp [closes, filled, searched]
  | cons ts ticks ih =>
      have hnext : closes sh (ts :: ticks) s =
          closes sh ticks (s.1, RBInput.closedMem sh s.1 ts s.2) := rfl
      have hvalid : (RBInput.closedMem sh s.1 ts s.2).valid = s.2.valid :=
        RingCall.after_valid sh (.close ts) s
      rw [hnext, ih]
      simp only [hvalid, RBInput.closedMem_writingPos, RBInput.closedMem_readablePos,
        RBInput.closedMem_at, filled, searched, List.mem_append]
      rw [← ite_or]
      exact if_congr (by tauto) rfl rfl

/-! ## The arc the ticks fill -/

omit [Inhabited α] in
/-- The slots of a lap from `t` on are all slots. -/
theorem RingShared.slotAt_reaches (sh : RingShared) (t : Usize) {i : Nat}
    (hi : i < sh.itemsSize) : ∃ j < sh.itemsSize, sh.slotAt (offset t j) = i := by
  have hslot := sh.slotAt_lt t
  refine ⟨(i + sh.itemsSize - sh.slotAt t) % sh.itemsSize, Nat.mod_lt _ sh.itemsSize_pos, ?_⟩
  have hstart : sh.slotAt t = slot sh.itemsSize t.toInt := by
    have := slotAt_offset sh t 0
    rwa [offset_zero, Int.add_zero] at this
  rw [slotAt_offset, slot_add_nat sh.itemsSize_pos, ← hstart, Nat.add_mod_mod]
  rw [show sh.slotAt t + (i + sh.itemsSize - sh.slotAt t) = i + sh.itemsSize by omega,
    Nat.add_mod_right, Nat.mod_eq_of_lt hi]

/-- The slots of a lap are different. -/
theorem RingShared.slotAt_offset_inj (sh : RingShared) (t : Usize) {j k : Nat}
    (hj : j < sh.itemsSize) (hk : k < sh.itemsSize)
    (h : sh.slotAt (offset t j) = sh.slotAt (offset t k)) : j = k := by
  rw [slotAt_offset, slotAt_offset] at h
  have := slot_inj sh.itemsSize_pos h (by omega) (by omega)
  omega

theorem RBInput.mem_filledSlots (sh : RingShared) {w u : Usize} (hpos : wrapsub u w > 0) {j : Nat}
    (hj : j < sh.itemsSize) :
    sh.slotAt (offset w j) ∈ filledSlots sh w u ↔ j < visits sh.itemsSize (wrapsub u w) := by
  have hle := visits_le_lap sh.itemsSize_pos (wrapsub u w)
  rw [filledSlots, if_pos hpos, sh.forInRing_wrapsub (by omega), sh.mem_walk]
  constructor
  · rintro ⟨k, hk, heq⟩
    rw [add_ofNat] at heq
    have := sh.slotAt_offset_inj w (by omega) hj heq
    omega
  · exact fun hlt => ⟨j, hlt, by rw [add_ofNat]⟩

/-- The slots the ticks fill are those of the first `covered` times. -/
theorem mem_filled (sh : RingShared) (w : Usize) (ticks : List Clock) {j : Nat}
    (hj : j < sh.itemsSize) :
    sh.slotAt (offset w j) ∈ filled sh w ticks ↔ j < covered sh.itemsSize w ticks := by
  induction ticks generalizing w j with
  | nil => simp [filled, covered]
  | cons ts ticks ih =>
      rw [filled, covered, List.mem_append, RBInput.endAt]
      by_cases hpos : wrapsub ts w > 0
      · rw [if_pos hpos, if_pos hpos, RBInput.mem_filledSlots sh hpos hj]
        by_cases hlt : j < visits sh.itemsSize (wrapsub ts w)
        · simp only [hlt, true_or, true_iff]
          omega
        · -- past the step of this tick, the rest is counted from `ts`
          obtain ⟨k, hk⟩ := visits_lap sh.itemsSize_pos hpos
          have hslot : sh.slotAt (offset w j) =
              sh.slotAt (offset ts (j - visits sh.itemsSize (wrapsub ts w) : Nat)) := by
            have hts : offset ts (j - visits sh.itemsSize (wrapsub ts w) : Nat) =
                offset w (j + sh.itemsSize * k) := by
              calc offset ts (j - visits sh.itemsSize (wrapsub ts w) : Nat)
                  = offset (offset w (wrapsub ts w))
                      (j - visits sh.itemsSize (wrapsub ts w) : Nat) := by rw [offset_wrapsub]
                _ = offset w (j + sh.itemsSize * k) := by
                  rw [offset_add]
                  congr 1
                  omega
            rw [hts, slotAt_offset, slotAt_offset, ← Int.add_assoc, slot_add_mul]
          rw [hslot, ih ts (by omega)]
          omega
      · rw [if_neg hpos, if_neg hpos, RBInput.filledSlots, if_neg hpos, ih w hj]
        simp

/-- No tick is more than a ring past the writing position it finds, and none is
far behind it. -/
def StepsWithin (N : Nat) : Usize → List Clock → Prop
  | _, [] => True
  | w, ts :: ticks =>
      (-2 ^ 61 ≤ wrapsub ts w ∧ wrapsub ts w ≤ N) ∧ StepsWithin N (RBInput.endAt w ts) ticks

/-- With such steps the ticks fill all slots up to a tick. -/
theorem StepsWithin.reaches {N : Nat} {w : Usize} {ticks : List Clock}
    (h : StepsWithin N w ticks) {ts : Clock} (hts : ts ∈ ticks) :
    ∃ d : Int, ts = offset w d ∧ d ≤ covered N w ticks ∧ -2 ^ 61 ≤ d := by
  induction ticks generalizing w with
  | nil => cases hts
  | cons first ticks ih =>
      obtain ⟨⟨hlow, hstep⟩, hrest⟩ := h
      rw [covered]
      unfold RBInput.endAt at hrest
      by_cases hpos : wrapsub first w > 0
      · have hvisits := visits_of_le (N := N) (Int.le_of_lt hpos) hstep
        rw [if_pos hpos] at hrest ⊢
        rcases List.mem_cons.mp hts with rfl | hts
        · exact ⟨wrapsub ts w, (offset_wrapsub ts w).symm, by omega, hlow⟩
        · obtain ⟨d, rfl, hd, hlow'⟩ := ih hrest hts
          refine ⟨wrapsub first w + d, ?_, by omega, by omega⟩
          rw [← offset_add, offset_wrapsub]
      · rw [if_neg hpos] at hrest ⊢
        rcases List.mem_cons.mp hts with rfl | hts
        · exact ⟨wrapsub ts w, (offset_wrapsub ts w).symm, by omega, hlow⟩
        · exact ih hrest hts

/-- If a tick is at an end that is a ring or more ahead, all slots are filled. -/
theorem StepsWithin.covers {sh : RingShared} {w E : Usize} {ticks : List Clock}
    (h : StepsWithin sh.itemsSize w ticks) (hfar : sh.itemsSize ≤ wrapsub E w)
    (hnear : wrapsub E w ≤ 3 * 2 ^ 61) {ts : Clock} (hts : ts ∈ ticks)
    (hend : wrappedDiff ts E ≥ 0) : sh.itemsSize ≤ covered sh.itemsSize w ticks := by
  obtain ⟨d, rfl, hd, hlow⟩ := h.reaches hts
  by_contra hlt
  have hdiff : wrapsub (offset w d) (offset w (wrapsub E w)) = d - wrapsub E w :=
    wrapsub_offset w ⟨by omega, by omega⟩
  rw [offset_wrapsub] at hdiff
  have hsame : wrappedDiff (offset w d) E = d - wrapsub E w := hdiff
  omega

/-! ## Silence -/

/-- Every slot holds the default. -/
def Silent (sh : RingShared) (m : RingMem α) : Prop :=
  ∀ i < sh.itemsSize, m.buffer (i * sh.stride) = default

/-- The slot holds audio, and is no hole that the ticks come upon. -/
def Sounds (sh : RingShared) (ticks : List Clock) (s : RingState α) (i : Nat) : Prop :=
  s.2.buffer (i * sh.stride) ≠ default ∧
    (i ∈ searched sh s.2.readablePos s.2.writingPos ticks → s.1.itemReady i = true)

/-- The ticks silence a ring exactly if they fill what sounds in it. -/
theorem closes_silent_iff {sh : RingShared} (ticks : List Clock) {s : RingState α}
    (hvalid : s.2.valid = true) :
    Silent sh (closes sh ticks s).2 ↔
      ∀ j < sh.itemsSize, Sounds sh ticks s (sh.slotAt (offset s.2.writingPos j)) →
        j < covered sh.itemsSize s.2.writingPos ticks := by
  constructor
  · rintro hsilent j hj ⟨haudio, hready⟩
    rw [← mem_filled sh s.2.writingPos ticks hj]
    have hslot := hsilent _ (sh.slotAt_lt (offset s.2.writingPos j))
    rw [closes_at] at hslot
    by_contra hnot
    rw [if_neg (by tauto)] at hslot
    exact haudio hslot
  · intro hall i hi
    obtain ⟨j, hj, rfl⟩ := sh.slotAt_reaches s.2.writingPos hi
    rw [closes_at]
    split
    · rfl
    · next hnot =>
        by_contra haudio
        have hfill := hall j hj
        rw [← mem_filled sh s.2.writingPos ticks hj, Sounds] at hfill
        exact hnot ⟨hvalid, by tauto⟩

/-! ## The writer of a disconnected ring -/

/-- The silence writers of a ring. -/
def FlowsReceiver.partings (rx : FlowsReceiver) (r : RingId) : List SilenceWriter :=
  rx.silenceWriters.filter (·.sink = r)

theorem FlowsReceiver.count_partings (rx : FlowsReceiver) (r : RingId) :
    (rx.silenceWriters.map SilenceWriter.sink).count r = (rx.partings r).length := by
  rw [partings, ← List.countP_eq_length_filter, List.count, List.countP_map]
  rfl

namespace FlowsReceiver

variable {rx rx' : FlowsReceiver} {r : RingId}

theorem handle_partings {now : Option Clock} {ringSize : RingId → Nat} {c : RxCommand}
    (hun : rx.Unsunk r) (hother : ¬(ReceiverEvent.command c now).Connects r)
    (h : rx.handle now ringSize c = some rx') : (rx'.partings r).Perm (rx.partings r) := by
  cases handled_of_handle h with
  | added | removed | notConnected | notDisconnected => exact List.Perm.refl _
  | @connected index c sink socket socket' hsocket hc hpush =>
      have hsink : sink ≠ r := hother
      show ((rx.takeSink sink).2.filter _).Perm _
      unfold takeSink
      split
      · next k hk =>
          obtain ⟨hlt, hget, _⟩ := List.findIdx?_eq_some_iff_getElem.mp hk
          have hperm := (perm_cons_swapRemove (List.getElem?_eq_getElem hlt)).filter (·.sink = r)
          have hne : ¬(rx.silenceWriters[k].sink = r) := by
            have : rx.silenceWriters[k].sink = sink := by simpa using hget
            rw [this]
            exact hsink
          rw [List.filter_cons_of_neg (by simpa using hne)] at hperm
          exact hperm.symm
      · exact List.Perm.refl _
  | @disconnected index c i rbShared socket ch hsocket hch hi =>
      -- a ring that is taken from the sinks was there
      have hne : rbShared ≠ r := by
        rintro rfl
        have hzero := hun index c
        rw [sinkCount, hsocket] at hzero
        dsimp only at hzero
        rw [RxSocket.sinkCount, hch] at hzero
        obtain ⟨hlt, hget, _⟩ := List.findIdx?_eq_some_iff_getElem.mp hi
        have hmem : rbShared ∈ ch.sinks := by
          have : ch.sinks[i] = rbShared := by simpa using hget
          exact this ▸ List.getElem_mem hlt
        exact List.count_eq_zero.mp hzero hmem
      have hnone : (now.toList.map fun now => (⟨rbShared, now +
          BitVec.ofNat 64 (ringSize rbShared + ringSize rbShared / 2) +
          ch.timestampShift⟩ : SilenceWriter)).filter (·.sink = r) = [] := by
        cases now <;> simp [hne]
      rw [partings, partings]
      dsimp only
      rw [List.filter_append, hnone, List.append_nil]

/-- A writer that leaves at a tick has come to its end. -/
theorem closeSilence_partings (rx : FlowsReceiver) (ts : Clock) (r : RingId) :
    ((rx.closeSilence ts).partings r).Perm (rx.partings r) ∨
      ∃ sw, wrappedDiff ts sw.endTimestamp ≥ 0 ∧
        (rx.partings r).Perm (sw :: (rx.closeSilence ts).partings r) := by
  unfold closeSilence
  split
  · exact Or.inl (List.Perm.refl _)
  · next k hk =>
      obtain ⟨hlt, hget, _⟩ := List.findIdx?_eq_some_iff_getElem.mp hk
      rw [List.length_reverse] at hlt
      rw [List.getElem_reverse] at hget
      have hperm := (perm_cons_swapRemove (List.getElem?_eq_getElem
        (show rx.silenceWriters.length - 1 - k < rx.silenceWriters.length by omega))).filter
          (·.sink = r)
      by_cases hsink : rx.silenceWriters[rx.silenceWriters.length - 1 - k].sink = r
      · rw [List.filter_cons_of_pos (by simpa using hsink)] at hperm
        exact Or.inr ⟨_, by simpa using hget, hperm⟩
      · rw [List.filter_cons_of_neg (by simpa using hsink)] at hperm
        exact Or.inl hperm.symm

end FlowsReceiver

/-! ## Runs without the ring -/

namespace ReceiverThread

variable {shape : RingId → RingShared} {sampleRate : BitVec 32} {t t' : ReceiverThread}
  {r : RingId} {E : Clock}

/-- The ring is no sink any more; if it has a silence writer, that ends at `E`. -/
structure Parting (r : RingId) (E : Clock) (t : ReceiverThread) : Prop where
  prepared : t.Prepared
  unsunk : t.rx.Unsunk r
  writer : t.rx.partings r = [⟨r, E⟩] ∨ t.rx.partings r = []

/-- The time up to which a closing tick closes the ring of a silence writer. -/
def closingTime (r : RingId) (t : ReceiverThread) : ReceiverEvent → Option Clock
  | .closingTick now => if t.rx.partings r = [] then none else t.tickTime now
  | .command .. | .readable .. => none

/-- The times up to which a run closes it. -/
def closingTimes (shape : RingId → RingShared) (sampleRate : BitVec 32) (r : RingId) :
    ReceiverThread → List ReceiverEvent → List Clock
  | _, [] => []
  | t, e :: es =>
      (t.closingTime r e).toList ++
        match t.step shape sampleRate e with
        | none => []
        | some t' => closingTimes shape sampleRate r t' es

theorem Parting.same (h : t.Parting r E) {rx : FlowsReceiver}
    (hperm : (rx.partings r).Perm (t.rx.partings r)) : rx.partings r = t.rx.partings r := by
  rcases h.writer with hw | hw
  · rw [hw] at hperm ⊢
    exact List.perm_singleton.mp hperm
  · rw [hw] at hperm ⊢
    exact hperm.eq_nil

/-- What a tick does to a ring that parts. -/
theorem Parting.tick (h : t.Parting r E) {now : Option Clock} (hprepared : t'.Prepared)
    (hun : t'.rx.Unsunk r) (hstep : t.step shape sampleRate (.closingTick now) = some t') :
    t'.Parting r E ∧
      t'.rings r = closes (shape r) (t.closingTime r (.closingTick now)).toList (t.rings r) ∧
      (t.rx.partings r ≠ [] → t'.rx.partings r = [] →
        ∃ ts, t.closingTime r (.closingTick now) = some ts ∧ wrappedDiff ts E ≥ 0) := by
  have hcount : (t.rx.sinkIds ++ t.rx.silenceWriters.map SilenceWriter.sink).count r =
      (t.rx.partings r).length := by
    rw [List.count_append, List.count_eq_zero.mpr ((t.rx.unsunk_iff r).mp h.unsunk),
      FlowsReceiver.count_partings, Nat.zero_add]
  rcases @close_eq shape now t with ⟨ts, hts, rings, hclose, hall⟩ | ⟨hts, hclose⟩
  · obtain rfl := Option.some.inj (hclose.symm.trans hstep)
    have hring := hall r
    rw [hcount] at hring
    rcases h.writer with hw | hw
    · have htime : t.closingTime r (.closingTick now) = some ts := by
        rw [closingTime, if_neg (by rw [hw]; exact List.cons_ne_nil _ _), hts]
      rw [hw] at hring
      refine ⟨⟨hprepared, hun, ?_⟩, by rw [htime]; exact hring, fun _ hnil => ⟨ts, htime, ?_⟩⟩
      · rcases t.rx.closeSilence_partings ts r with hperm | ⟨sw, _, hperm⟩
        · exact Or.inl ((h.same hperm).trans hw)
        · rw [hw] at hperm
          exact Or.inr (List.cons.inj (List.singleton_perm.mp hperm)).2.symm
      · rcases t.rx.closeSilence_partings ts r with hperm | ⟨sw, hend, hperm⟩
        · have hkept := (h.same hperm).trans hw
          exact absurd (hkept.symm.trans hnil) (List.cons_ne_nil _ _)
        · rw [hw] at hperm
          rw [← (List.cons.inj (List.singleton_perm.mp hperm)).1] at hend
          exact hend
    · have htime : t.closingTime r (.closingTick now) = none := if_pos hw
      rw [hw] at hring
      refine ⟨⟨hprepared, hun, Or.inr ?_⟩, by rw [htime]; exact hring,
        fun hne => absurd hw hne⟩
      rcases t.rx.closeSilence_partings ts r with hperm | ⟨sw, _, hperm⟩
      · exact (h.same hperm).trans hw
      · rw [hw] at hperm
        exact absurd hperm.symm.eq_nil (List.cons_ne_nil _ _)
  · obtain rfl := Option.some.inj (hclose.symm.trans hstep)
    have htime : t.closingTime r (.closingTick now) = none := by
      rw [closingTime, hts]
      exact ite_self _
    rw [htime]
    exact ⟨h, rfl, fun hne hnil => absurd hnil hne⟩

/-- What a step does to a ring that parts. -/
theorem Parting.step (h : t.Parting r E) {e : ReceiverEvent} (hfresh : e.Fresh)
    (hother : ¬e.Connects r) (hstep : t.step shape sampleRate e = some t') :
    t'.Parting r E ∧
      t'.rings r = closes (shape r) (t.closingTime r e).toList (t.rings r) ∧
      (t.rx.partings r ≠ [] → t'.rx.partings r = [] →
        ∃ ts, t.closingTime r e = some ts ∧ wrappedDiff ts E ≥ 0) := by
  obtain ⟨hprepared, hsinks⟩ := step_sinks h.prepared hfresh hstep r
  have hun := ReceiverEvent.unsunk hfresh hother hsinks h.unsunk
  cases e with
  | command c now =>
      obtain ⟨rx, hrx, hstep⟩ := Option.bind_eq_some_iff.mp hstep
      cases hstep
      have hwriter := h.same (FlowsReceiver.handle_partings h.unsunk hother hrx)
      refine ⟨⟨hprepared, hun, hwriter ▸ h.writer⟩, resetRing_other hother, ?_⟩
      exact fun hne hnil => absurd (hwriter.symm.trans hnil) hne
  | readable socketIndex startTime datagrams =>
      obtain ⟨hwriters, hrings⟩ := lookForStart_rest startTime t
      have hwriter : t'.rx.partings r = t.rx.partings r := by
        rw [FlowsReceiver.partings, (receive_rx hstep).1, hwriters]
        rfl
      have hlooked : (t.lookForStart startTime).rx.Unsunk r := fun f c => by
        rw [FlowsReceiver.sinkCount_eq, lookForStart_sinks, ← FlowsReceiver.sinkCount_eq]
        exact h.unsunk f c
      refine ⟨⟨hprepared, hun, hwriter ▸ h.writer⟩, ?_, ?_⟩
      · rw [receive_other hlooked hstep, hrings]
        rfl
      · exact fun hne hnil => absurd (hwriter.symm.trans hnil) hne
  | closingTick now => exact h.tick hprepared hun hstep

/-- A run closes a ring that parts at its ticks, and the ring's writer leaves
after a tick at its end. -/
theorem Parting.run (h : t.Parting r E) {es : List ReceiverEvent} (hfresh : ∀ e ∈ es, e.Fresh)
    (hother : ∀ e ∈ es, ¬e.Connects r) (hrun : t.run shape sampleRate es = some t') :
    t'.rings r = closes (shape r) (t.closingTimes shape sampleRate r es) (t.rings r) ∧
      (t.rx.partings r ≠ [] → t'.rx.partings r = [] →
        ∃ ts ∈ t.closingTimes shape sampleRate r es, wrappedDiff ts E ≥ 0) := by
  induction es generalizing t with
  | nil =>
      cases hrun
      exact ⟨rfl, fun hne hnil => absurd hnil hne⟩
  | cons e es ih =>
      rw [ReceiverThread.run, List.foldlM_cons] at hrun
      obtain ⟨t₁, hstep, hrun⟩ := Option.bind_eq_some_iff.mp hrun
      obtain ⟨hnext, hring, hleft⟩ :=
        h.step (hfresh e List.mem_cons_self) (hother e List.mem_cons_self) hstep
      obtain ⟨hrings, hend⟩ := ih hnext (fun e he => hfresh e (List.mem_cons_of_mem _ he))
        (fun e he => hother e (List.mem_cons_of_mem _ he)) hrun
      have htimes : t.closingTimes shape sampleRate r (e :: es) =
          (t.closingTime r e).toList ++ t₁.closingTimes shape sampleRate r es := by
        rw [closingTimes, hstep]
      rw [htimes]
      refine ⟨?_, fun hne hnil => ?_⟩
      · rw [hrings, hring, closes, closes, closes, List.foldl_append]
      · by_cases hstay : t₁.rx.partings r = []
        · obtain ⟨ts, hts, hge⟩ := hleft hne hstay
          exact ⟨ts, List.mem_append_left _ (by rw [hts]; exact List.mem_singleton_self ts), hge⟩
        · obtain ⟨ts, hmem, hge⟩ := hend hstay hnil
          exact ⟨ts, List.mem_append_right _ hmem, hge⟩

/-! ## Silence at the end -/

/-- After a disconnect the ring is closed tick after tick, the last time at the
end of its silence writer or later. -/
theorem silenced_by_ticks {maxChannels : Nat} {waiting : Bool}
    {rings : RingId → RingState Sample} {before after : List ReceiverEvent}
    {t t₁ t₂ : ReceiverThread} {socketIndex channelInFlow : Nat} {now : Clock}
    (hfresh : ∀ e ∈ before ++ after, e.Fresh)
    (hbefore : (start maxChannels waiting rings).run shape sampleRate before = some t)
    (hstep : t.step shape sampleRate
      (.command (.disconnectChannel socketIndex channelInFlow r) (some now)) = some t₁)
    (hmoved : t₁.rx.partings r = [⟨r, E⟩]) (honly : r ∉ t₁.rx.sinkIds)
    (hother : ∀ e ∈ after, ¬e.Connects r)
    (hafter : t₁.run shape sampleRate after = some t₂) (hgone : t₂.rx.partings r = []) :
    t₂.rings r = closes (shape r) (t₁.closingTimes shape sampleRate r after) (t.rings r) ∧
      ∃ ts ∈ t₁.closingTimes shape sampleRate r after, wrappedDiff ts E ≥ 0 := by
  have hprepared : t.Prepared := run_prepared (prepared_start maxChannels waiting rings)
    (fun e he => hfresh e (List.mem_append_left _ he)) hbefore
  have hcommand : ReceiverEvent.Fresh
      (.command (.disconnectChannel socketIndex channelInFlow r) (some now)) := trivial
  have hparting : t₁.Parting r E :=
    ⟨(step_sinks hprepared hcommand hstep r).1, (t₁.rx.unsunk_iff r).mpr honly, Or.inl hmoved⟩
  have hrings : t₁.rings = t.rings := by
    obtain ⟨rx, _, hstep⟩ := Option.bind_eq_some_iff.mp hstep
    cases hstep
    rfl
  obtain ⟨hring, hend⟩ := hparting.run (fun e he => hfresh e (List.mem_append_right _ he))
    hother hafter
  exact ⟨hrings ▸ hring, hend (by rw [hmoved]; exact List.cons_ne_nil _ _) hgone⟩

/-- A ring whose channel is disconnected, once its silence writer is gone: a
tick was at the writer's end, and the ring is silent exactly if what sounded in
it is among the slots that the ticks filled. -/
theorem silenced_iff {shape : RingId → RingShared} {sampleRate : BitVec 32} {maxChannels : Nat}
    {waiting : Bool} {rings : RingId → RingState Sample} {before after : List ReceiverEvent}
    {t t₁ t₂ : ReceiverThread} {socketIndex channelInFlow : Nat} {r : RingId} {now E : Clock}
    (hfresh : ∀ e ∈ before ++ after, e.Fresh)
    (hbefore : (start maxChannels waiting rings).run shape sampleRate before = some t)
    (hvalid : (t.rings r).2.valid = true)
    (hstep : t.step shape sampleRate
      (.command (.disconnectChannel socketIndex channelInFlow r) (some now)) = some t₁)
    (hmoved : t₁.rx.partings r = [⟨r, E⟩]) (honly : r ∉ t₁.rx.sinkIds)
    (hother : ∀ e ∈ after, ¬e.Connects r)
    (hafter : t₁.run shape sampleRate after = some t₂) (hgone : t₂.rx.partings r = []) :
    (∃ ts ∈ t₁.closingTimes shape sampleRate r after, wrappedDiff ts E ≥ 0) ∧
      (Silent (shape r) (t₂.rings r).2 ↔
        ∀ j < (shape r).itemsSize,
          Sounds (shape r) (t₁.closingTimes shape sampleRate r after) (t.rings r)
              ((shape r).slotAt (offset (t.rings r).2.writingPos j)) →
            j < covered (shape r).itemsSize (t.rings r).2.writingPos
              (t₁.closingTimes shape sampleRate r after)) := by
  obtain ⟨hring, hend⟩ :=
    silenced_by_ticks hfresh hbefore hstep hmoved honly hother hafter hgone
  refine ⟨hend, ?_⟩
  rw [hring]
  exact closes_silent_iff _ hvalid

/-- Where a silence writer ends: one and a half rings after the shifted clock. -/
theorem disconnect_end {socketIndex channelInFlow : Nat} {now : Clock} {socket : RxSocket}
    {ch : RxChannel RingId} (hsocket : t.rx.sockets[socketIndex]?.join = some socket)
    (hch : socket.channels[channelInFlow]?.join = some ch) (hnone : t.rx.partings r = [])
    (hstep : t.step shape sampleRate
      (.command (.disconnectChannel socketIndex channelInFlow r) (some now)) = some t')
    (hmoved : t'.rx.partings r = [⟨r, E⟩]) :
    E = now + BitVec.ofNat 64 ((shape r).itemsSize + (shape r).itemsSize / 2) +
      ch.timestampShift := by
  obtain ⟨rx, hrx, hstep⟩ := Option.bind_eq_some_iff.mp hstep
  cases hstep
  cases FlowsReceiver.handled_of_handle hrx with
  | notDisconnected => exact absurd (hnone.symm.trans hmoved) (List.cons_ne_nil _ _).symm
  | disconnected hsocket₁ hch₁ =>
      cases hsocket.symm.trans hsocket₁
      cases hch.symm.trans hch₁
      rw [FlowsReceiver.partings] at hmoved hnone
      dsimp only at hmoved
      rw [List.filter_append, hnone] at hmoved
      simp only [Option.toList_some, List.map_cons, List.map_nil, decide_true,
        List.filter_cons_of_pos, List.filter_nil, List.nil_append, List.cons.injEq, and_true,
        SilenceWriter.mk.injEq, true_and] at hmoved
      exact hmoved.symm

/-- If the writing position is at most half a ring ahead of the shifted clock
and no tick is more than a ring past it, the ring is silent in the end. -/
theorem silenced_of_short_steps {maxChannels : Nat}
    {waiting : Bool} {rings : RingId → RingState Sample} {before after : List ReceiverEvent}
    {t t₁ t₂ : ReceiverThread} {socketIndex channelInFlow : Nat} {now : Clock}
    {socket : RxSocket} {ch : RxChannel RingId}
    (hfresh : ∀ e ∈ before ++ after, e.Fresh)
    (hbefore : (start maxChannels waiting rings).run shape sampleRate before = some t)
    (hvalid : (t.rings r).2.valid = true)
    (hsocket : t.rx.sockets[socketIndex]?.join = some socket)
    (hch : socket.channels[channelInFlow]?.join = some ch) (hnone : t.rx.partings r = [])
    (hstep : t.step shape sampleRate
      (.command (.disconnectChannel socketIndex channelInFlow r) (some now)) = some t₁)
    (hmoved : t₁.rx.partings r = [⟨r, E⟩]) (honly : r ∉ t₁.rx.sinkIds)
    (hother : ∀ e ∈ after, ¬e.Connects r)
    (hafter : t₁.run shape sampleRate after = some t₂) (hgone : t₂.rx.partings r = [])
    (hahead : wrapsub (t.rings r).2.writingPos (now + ch.timestampShift) ≤
      (shape r).itemsSize / 2)
    (hbehind : -2 ^ 61 ≤ wrapsub (t.rings r).2.writingPos (now + ch.timestampShift))
    (hsteps : StepsWithin (shape r).itemsSize (t.rings r).2.writingPos
      (t₁.closingTimes shape sampleRate r after)) :
    Silent (shape r) (t₂.rings r).2 := by
  obtain ⟨hring, ts, hts, hend⟩ :=
    silenced_by_ticks hfresh hbefore hstep hmoved honly hother hafter hgone
  rw [hring]
  refine (closes_silent_iff _ hvalid).mpr fun j hj _ => ?_
  have hle := (shape r).itemsSize_le
  have hE : wrapsub E (t.rings r).2.writingPos =
      (shape r).itemsSize + (shape r).itemsSize / 2 -
        wrapsub (t.rings r).2.writingPos (now + ch.timestampShift) := by
    have hends : E = offset (now + ch.timestampShift)
        ((shape r).itemsSize + (shape r).itemsSize / 2 : Nat) := by
      rw [disconnect_end hsocket hch hnone hstep hmoved, ← add_ofNat, add_right_comm]
    have hw := (offset_wrapsub (t.rings r).2.writingPos (now + ch.timestampShift)).symm
    rw [hends]
    conv_lhs => rw [hw]
    rw [wrapsub_offset _ ⟨by omega, by omega⟩]
    omega
  have hall := hsteps.covers (by omega) (by omega) hts hend
  omega

/-! ## A late tick -/

theorem fourSlots_fit : 4 ≤ 2 ^ 61 := by decide

/-- Every ring has four slots. -/
def fourSlots : RingId → RingShared := fun _ => ownedShared 4 fourSlots_fit

/-- Three samples from 100 on. -/
def threeSamples : Datagram where
  buf := fun p => if p = 8 then 100 else if 9 ≤ p then 1 else 0
  recvSize := 15
  src := ⟨0, 0⟩
  now := none
  elapsed := 0
  logDue := false

/-- A channel is connected at 100 with a latency of two samples, and receives a packet. -/
def onePacket : List ReceiverEvent :=
  [.command (.addSocket 0 ⟨false, 2, 2, [none], [[]]⟩) none,
    .command (.connectChannel 0 0 (.external 0)) (some 100),
    .readable 0 none [threeSamples]]

/-- The channel is disconnected at 101, two samples before its writing position,
and the next closing tick is at 110: five samples after it. -/
theorem late_tick :
    ((start 1 false fun _ => newOwned 0 0).run fourSlots 48000 onePacket).bind (fun t =>
      (t.step fourSlots 48000 (.command (.disconnectChannel 0 0 (.external 0)) (some 101))).bind
        fun t₁ => (t₁.run fourSlots 48000 [.closingTick (some 110)]).map fun t₂ =>
          ((t.rings (.external 0)).2.valid, (t.rings (.external 0)).2.writingPos,
            t₁.rx.partings (.external 0), decide (.external 0 ∈ t₁.rx.sinkIds),
            t₂.rx.partings (.external 0), (t₂.rings (.external 0)).2.buffer 2)) =
      some (true, 105, [⟨.external 0, 109⟩], false, [], 0x01010000) := by
  rfl

theorem silenced_iff_late :
    ∃ t t₁ t₂ : ReceiverThread,
      (start 1 false fun _ => newOwned 0 0).run fourSlots 48000 onePacket = some t ∧
      t.step fourSlots 48000
        (.command (.disconnectChannel 0 0 (.external 0)) (some 101)) = some t₁ ∧
      t₁.run fourSlots 48000 [.closingTick (some 110)] = some t₂ ∧
      (∃ ts ∈ t₁.closingTimes fourSlots 48000 (.external 0) [.closingTick (some 110)],
        wrappedDiff ts 109 ≥ 0) ∧
      (Silent (fourSlots (.external 0)) (t₂.rings (.external 0)).2 ↔
        ∀ j < (fourSlots (.external 0)).itemsSize,
          Sounds (fourSlots (.external 0))
              (t₁.closingTimes fourSlots 48000 (.external 0) [.closingTick (some 110)])
              (t.rings (.external 0)) ((fourSlots (.external 0)).slotAt
                (offset (t.rings (.external 0)).2.writingPos j)) →
            j < covered (fourSlots (.external 0)).itemsSize
              (t.rings (.external 0)).2.writingPos
              (t₁.closingTimes fourSlots 48000 (.external 0) [.closingTick (some 110)])) := by
  obtain ⟨t, hbefore, hlate⟩ := Option.bind_eq_some_iff.mp late_tick
  obtain ⟨t₁, hstep, hlate⟩ := Option.bind_eq_some_iff.mp hlate
  obtain ⟨t₂, hafter, hlate⟩ := Option.map_eq_some_iff.mp hlate
  simp only [Prod.mk.injEq, decide_eq_false_iff_not] at hlate
  obtain ⟨hvalid, _, hmoved, honly, hgone, _⟩ := hlate
  have hfresh : ∀ e ∈ onePacket ++ [ReceiverEvent.closingTick (some 110)], e.Fresh := by
    simp [onePacket, ReceiverEvent.Fresh, RxCommand.Fresh, RxSocket.Prepared]
  exact ⟨t, t₁, t₂, hbefore, hstep, hafter, silenced_iff hfresh hbefore hvalid hstep hmoved honly
    (by simp [ReceiverEvent.Connects]) hafter hgone⟩

/-- The writer is gone and the ring still holds a sample of the packet. -/
theorem late_tick_leaves_audio :
    ∃ t t₁ t₂ : ReceiverThread,
      (start 1 false fun _ => newOwned 0 0).run fourSlots 48000 onePacket = some t ∧
      wrapsub (t.rings (.external 0)).2.writingPos (101 + 2) = 2 ∧
      t.step fourSlots 48000
        (.command (.disconnectChannel 0 0 (.external 0)) (some 101)) = some t₁ ∧
      t₁.rx.partings (.external 0) = [⟨.external 0, 109⟩] ∧
      t₁.run fourSlots 48000 [.closingTick (some 110)] = some t₂ ∧
      t₂.rx.partings (.external 0) = [] ∧
      ¬Silent (fourSlots (.external 0)) (t₂.rings (.external 0)).2 := by
  obtain ⟨t, hbefore, hlate⟩ := Option.bind_eq_some_iff.mp late_tick
  obtain ⟨t₁, hstep, hlate⟩ := Option.bind_eq_some_iff.mp hlate
  obtain ⟨t₂, hafter, hlate⟩ := Option.map_eq_some_iff.mp hlate
  simp only [Prod.mk.injEq] at hlate
  obtain ⟨_, hwriting, hmoved, _, hgone, hslot⟩ := hlate
  refine ⟨t, t₁, t₂, hbefore, by rw [hwriting]; rfl, hstep, hmoved, hafter, hgone, fun hsilent => ?_⟩
  have hzero := hsilent 2 (by decide)
  rw [show 2 * (fourSlots (.external 0)).stride = 2 from rfl, hslot] at hzero
  exact absurd hzero (by decide)

end ReceiverThread

end Inferno
