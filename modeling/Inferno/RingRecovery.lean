import Inferno.RingLate

/-!
# One stray packet among packets in order

A packet far ahead of the stream takes the writing position with it, and the
stream goes on behind. Seen from the position `p` where it went astray, the
writing position is the later of where the stray packet ended (`w₀`) and where
the stream is (`q`); the readable position catches up with the stream as long
as no scan walks more than a lap. The newest packet of the stream can then be
read again once the stream is within a lap of `w₀` (`recovers_iff`).
-/

namespace Inferno

variable {α : Type}

/-! ## Packets in order -/

/-- Packets that continue each other, the first at `t`. -/
def inOrder (t : Usize) : List (List α) → List (RingCall α)
  | [] => []
  | xs :: rest => .write t xs :: inOrder (t + BitVec.ofNat 64 xs.length) rest

variable [Inhabited α]

/-- The positions seen from `p`: the stream is at `q`, writing has gone as far
as `w₀` or the stream, and `r` is readable. -/
structure Follows (p : Usize) (w₀ q r : Int) (s : RingState α) : Prop where
  writing : s.2.writingPos = offset p (max w₀ q)
  reading : s.2.readablePos = offset p r
  behind : r ≤ max w₀ q
  wait : max w₀ q - r ≤ s.1.holeFixWait.toNat
  valid : s.2.valid = true

/-- Where the readable position goes with the next packet of the stream. -/
def followed (sh : RingShared) (s : RingState α) (p : Usize) (w₀ q r : Int) (xs : List α) : Int :=
  RBInput.readableAfter sh (RBInput.storedInput sh s.1 (offset p q) xs s.2)
    (decide (r ≠ max w₀ q)) p r (max w₀ (q + xs.length))

namespace Follows

variable {sh : RingShared} {p : Usize} {w₀ q r : Int} {s : RingState α}

/-- One packet of the stream. -/
theorem write (hf : Follows p w₀ q r s) (hw₀ : w₀ < 2 ^ 63) (hq : 0 ≤ q)
    (hwait : s.1.holeFixWait.toNat < 2 ^ 63) {xs : List α} (hn : xs.length < sh.itemsSize) :
    Follows p w₀ (q + xs.length) (followed sh s p w₀ q r xs)
      ((RingCall.write (offset p q) xs).after sh s) := by
  obtain ⟨hw, hr, hbehind, hlag, hvalid⟩ := hf
  have hN := sh.itemsSize_le
  have hend : RBInput.endAt s.2.writingPos (offset p q + BitVec.ofNat 64 xs.length) =
      offset p (max w₀ (q + xs.length)) := by
    rw [hw, offset_add_ofNat, RBInput.endAt_offset p ⟨by omega, by omega⟩]
    congr 1
    omega
  have hhole : RBInput.findsHole (offset p q) s.2 = decide (r ≠ max w₀ q) := by
    have hback := wrapsub_offset p (a := q) (c := max w₀ q) ⟨by omega, by omega⟩
    have hlag' := wrapsub_offset p (a := max w₀ q) (c := r) ⟨by omega, by omega⟩
    rw [RBInput.findsHole, hw, hr, hback, decide_eq_false (by omega), Bool.false_or]
    by_cases heq : r = max w₀ q
    · simp [heq]
    · have hne : offset p r ≠ offset p (max w₀ q) := fun hcon => by
        rw [hcon, wrapsub_self] at hlag'
        omega
      simp [heq, hne]
  obtain ⟨hwpos, hrpos⟩ := RBInput.wrote_positions sh s.1 hr hend (by omega) (by omega)
    hwait
  obtain ⟨_, h1, h2⟩ := RBInput.readableAfter_bounds sh
    (RBInput.storedInput sh s.1 (offset p q) xs s.2) (decide (r ≠ max w₀ q)) p
    (show r ≤ max w₀ (q + xs.length) by omega)
  rw [hhole] at hrpos
  exact {
    writing := hwpos
    reading := hrpos
    behind := h1
    wait := by
      rw [RingCall.after_holeFixWait, ← RBInput.storedInput_holeFixWait sh s.1 (offset p q) xs s.2]
      exact h2
    valid := (RingCall.after_valid sh _ s).trans hvalid }

end Follows

/-! ## Catching up -/

namespace RBInput

omit [Inhabited α] in
/-- The slots of a packet are ready once it is stored. -/
theorem storedInput_ready (sh : RingShared) (inp : RBInput) {m : RingMem α}
    (hvalid : m.valid = true) (ts : Usize) (xs : List α) {j : Nat} (hj : j < xs.length) :
    (storedInput sh inp ts xs m).itemReady (sh.slotAt (ts + BitVec.ofNat 64 j)) = true := by
  rw [storedInput, if_pos hvalid, readied_itemReady, if_pos (sh.mem_walk.mpr ⟨j, hj, rfl⟩)]

end RBInput

omit [Inhabited α] in
/-- A scan of no more than a lap reaches the end of the packet just stored. -/
theorem followed_caught {sh : RingShared} {s : RingState α} {p : Usize} {w₀ q r : Int}
    {xs : List α} (hvalid : s.2.valid = true) (hqr : q ≤ r) (hn : xs.length < sh.itemsSize)
    (hlap : s.1.holeFixWait.toNat ≤ sh.itemsSize ∨ w₀ ≤ q + sh.itemsSize) :
    q + xs.length ≤ followed sh s p w₀ q r xs := by
  unfold followed RBInput.readableAfter
  split
  · next hhole =>
      rw [RBInput.storedInput_holeFixWait]
      obtain ⟨r₁, hr₁⟩ : ∃ r₁, r₁ =
          max r (max w₀ (q + xs.length) - s.1.holeFixWait.toNat) := ⟨_, rfl⟩
      rw [← hr₁]
      by_cases hpast : q + xs.length ≤ r₁
      · omega
      · have hvisits := visits_of_le (N := sh.itemsSize)
          (show 0 ≤ max w₀ (q + xs.length) - r₁ by omega) (by omega)
        have hlen : (RBInput.scanSlots sh p r₁ (max w₀ (q + xs.length))).length =
            visits sh.itemsSize (max w₀ (q + xs.length) - r₁) := sh.length_walk _ _
        have hrun := @RBInput.le_readyRun (RBInput.storedInput sh s.1 (offset p q) xs s.2)
          (RBInput.scanSlots sh p r₁ (max w₀ (q + xs.length)))
          (q + xs.length - r₁).toNat (by omega) ?_
        · omega
        · intro j hj i hi
          have hslot : i = sh.slotAt (offset p q + BitVec.ofNat 64 (r₁ + j - q).toNat) := by
            rw [sh.walk_getElem? hi, offset_add_ofNat, offset_add_ofNat]
            congr 2
            omega
          rw [hslot]
          exact RBInput.storedInput_ready sh s.1 hvalid (offset p q) xs (by omega)
  · omega

/-! ## The newest packet -/

namespace RBInput

/-- A slot that is ready is not silenced. -/
theorem silenced_of_ready (sh : RingShared) (inp : RBInput) {i : Nat}
    (hi : inp.itemReady i = true) (slots : List Nat) (b : Nat → α) :
    silenced sh inp slots b (i * sh.stride) = b (i * sh.stride) := by
  simp [silenced_at, hi]

/-- What a packet stored is in the cells of its slots. -/
theorem wrote_cell (sh : RingShared) (inp : RBInput) {m : RingMem α} (hvalid : m.valid = true)
    (ts : Usize) {xs : List α} (hn : xs.length < sh.itemsSize) {j : Nat} (hj : j < xs.length) :
    (wrote sh inp ts xs m).2.buffer (sh.slotAt (ts + BitVec.ofNat 64 j) * sh.stride) = xs[j] := by
  have hstored : (storedMem sh ts xs m).buffer
      (sh.slotAt (ts + BitVec.ofNat 64 j) * sh.stride) = xs[j] := by
    have hbuf : (storedMem sh ts xs m).buffer =
        storedItems sh (sh.walk ts xs.length) xs m.buffer := if_pos hvalid
    rw [hbuf]
    exact storedItems_getElem? sh (sh.walk_nodup (Nat.le_of_lt hn) ts) (by
      simp [RingShared.walk, hj]) (List.getElem?_eq_getElem hj) m.buffer
  show (publishedMem sh _ (findsHole ts m) _).buffer _ = _
  cases findsHole ts m with
  | false => exact hstored
  | true =>
      simp only [publishedMem, if_true]
      unfold closedHoles
      split
      · rw [← hstored]
        exact silenced_of_ready sh _ (storedInput_ready sh inp hvalid ts xs hj) _ _
      · exact hstored

end RBInput

/-- Of the newest packet of the stream, item `j` is read if the readable
position is past it and the writing position at most a lap. -/
theorem Follows.sampleAt {sh : RingShared} (hown : sh.unconditionalRead = false) {p : Usize}
    {w₀ q r : Int} {s : RingState α} (hf : Follows p w₀ q r s) (hw₀ : w₀ < 2 ^ 63)
    (hwait : s.1.holeFixWait.toNat < 2 ^ 63) {t : Int} (ht0 : 0 ≤ t) (htq : t < q)
    (hnew : q ≤ t + sh.itemsSize) (x : α) :
    RBOutput.sampleAt sh s.2 (offset p t) = some x ↔
      t < r ∧ max w₀ q ≤ t + sh.itemsSize ∧
        s.2.buffer (sh.slotAt (offset p t) * sh.stride) = x := by
  obtain ⟨hw, hr, hbehind, hlag, hvalid⟩ := hf
  have hN := sh.itemsSize_le
  rw [RBOutput.sampleAt_owned hown hvalid, hw, hr, wrapsub_offset p ⟨by omega, by omega⟩,
    wrapsub_offset p ⟨by omega, by omega⟩]
  by_cases hin : 0 < r - t ∧ r - t ≤ sh.itemsSize ∧ max w₀ q - t ≤ sh.itemsSize
  · rw [if_pos hin, Option.some.injEq]
    exact ⟨fun hx => ⟨by omega, by omega, hx⟩, fun hx => hx.2.2⟩
  · rw [if_neg hin]
    exact ⟨fun hx => (nomatch hx), fun ⟨_, _, _⟩ => absurd ⟨by omega, by omega, by omega⟩ hin⟩

/-! ## The stream -/

section Stream

variable {sh : RingShared} {p : Usize} {w₀ : Int}

theorem runCalls_write {s : RingState α} {ts : Usize} {xs : List α} {cs : List (RingCall α)}
    (hn : xs.length < sh.itemsSize) :
    runCalls sh (.write ts xs :: cs) s = runCalls sh cs ((RingCall.write ts xs).after sh s) := by
  rw [runCalls, RingCall.run_eq, if_pos (show (RingCall.write ts xs).Short sh from hn),
    Option.bind_some]

/-- The stream behind a stray packet: the writing position is known, and the
readable position keeps up if no scan walks more than a lap. -/
theorem inOrder_follows {ps : List (List α)} (hps : ∀ xs ∈ ps, xs.length < sh.itemsSize)
    (hw₀ : w₀ < 2 ^ 63) {q r : Int} {s : RingState α} (hq : 0 ≤ q)
    (hwait : s.1.holeFixWait.toNat < 2 ^ 63) (hf : Follows p w₀ q r s) :
    ∃ r' s', runCalls sh (inOrder (offset p q) ps) s = some s' ∧
      s'.1.holeFixWait = s.1.holeFixWait ∧ Follows p w₀ (q + ps.flatten.length) r' s' ∧
      (q ≤ r → s.1.holeFixWait.toNat ≤ sh.itemsSize ∨ w₀ ≤ q + sh.itemsSize →
        q + ps.flatten.length ≤ r') := by
  induction ps generalizing q r s with
  | nil => exact ⟨r, s, rfl, rfl, by simpa using hf, fun hqr _ => by simpa using hqr⟩
  | cons xs ps ih =>
      have hn := hps xs List.mem_cons_self
      have hstep := hf.write hw₀ hq hwait hn
      have hin := RingCall.after_holeFixWait sh (.write (offset p q) xs) s
      obtain ⟨r', s', hrun, hin', hf', hcaught⟩ := ih
        (fun ys hys => hps ys (List.mem_cons_of_mem _ hys)) (show 0 ≤ q + (xs.length : Int) by omega)
        (by rw [hin]; exact hwait) hstep
      have hlen : q + ((xs :: ps).flatten.length : Int) =
          q + xs.length + ps.flatten.length := by
        rw [List.flatten_cons, List.length_append]
        omega
      refine ⟨r', s', ?_, hin'.trans hin, by rw [hlen]; exact hf', fun hqr hlap => ?_⟩
      · rw [inOrder, runCalls_write hn, offset_add_ofNat]
        exact hrun
      · rw [hlen]
        refine hcaught (followed_caught hf.valid hqr hn hlap) ?_
        rw [hin]
        exact hlap.imp_right fun hw => by omega

/-- Without a stray packet nothing is ever waited for. -/
theorem inOrder_clean {ps : List (List α)} (hps : ∀ xs ∈ ps, xs.length < sh.itemsSize)
    (startTime holeFixWait : Usize) (hwait : holeFixWait.toNat < 2 ^ 63) :
    ∃ s, runCalls sh (inOrder startTime ps) (newOwned startTime holeFixWait) = some s ∧
      s.1.holeFixWait = holeFixWait ∧ s.2.valid = true ∧
      s.2.writingPos = offset startTime ps.flatten.length ∧
      s.2.readablePos = offset startTime ps.flatten.length := by
  have hfresh : Follows startTime 0 0 0 (newOwned startTime holeFixWait : RingState α) :=
    ⟨(offset_zero _).symm, (offset_zero _).symm, by simp, by simp, rfl⟩
  obtain ⟨r, s, hrun, hin, hf, hcaught⟩ := inOrder_follows hps (by decide) (Int.le_refl 0)
    (show holeFixWait.toNat < 2 ^ 63 from hwait) hfresh
  rw [offset_zero] at hrun
  have hr := hcaught (Int.le_refl 0) (.inr (by omega))
  have hbehind := hf.behind
  obtain rfl : r = ps.flatten.length := by omega
  refine ⟨s, hrun, hin, hf.valid, ?_, hf.reading⟩
  rw [hf.writing]
  congr 1
  omega

/-- How far the stray packet takes the writing position: not at all if it ends
behind it, or `2 ^ 63` or more ahead. -/
def strayEnd (ahead : Int) : Int := if 0 < ahead ∧ ahead < 2 ^ 63 then ahead else 0

/-- The stray packet, met by a stream without holes. -/
theorem stray_follows {s : RingState α} {t : Usize} {ys : List α}
    (hys : ys.length < sh.itemsSize) (hvalid : s.2.valid = true)
    (hw : s.2.writingPos = p) (hr : s.2.readablePos = p)
    (hwait : s.1.holeFixWait.toNat < 2 ^ 63) :
    ∃ r, 0 ≤ r ∧ Follows p (strayEnd (wrapsub t p + ys.length)) 0 r
      ((RingCall.write t ys).after sh s) := by
  have hN := sh.itemsSize_le
  obtain ⟨hlow, hhigh⟩ := fitsIsize_wrapsub t p
  have hend : RBInput.endAt s.2.writingPos (t + BitVec.ofNat 64 ys.length) =
      offset p (strayEnd (wrapsub t p + ys.length)) := by
    have ht : t + BitVec.ofNat 64 ys.length = offset p (wrapsub t p + ys.length) := by
      rw [← offset_add_ofNat, offset_wrapsub]
    rw [hw, ht, strayEnd]
    by_cases hwrap : wrapsub t p + ys.length < 2 ^ 63
    · have hmax := RBInput.endAt_offset p (w := 0) (e := wrapsub t p + ys.length)
        ⟨by omega, by omega⟩
      rw [offset_zero] at hmax
      rw [hmax]
      congr 1
      split <;> omega
    · have hback := wrapsub_offset p (a := wrapsub t p + ys.length - 2 ^ 64) (c := 0)
        ⟨by omega, by omega⟩
      rw [offset_zero, offset_sub_lap] at hback
      rw [RBInput.endAt, if_neg (by omega), if_neg (by omega), offset_zero]
  have h0 : 0 ≤ strayEnd (wrapsub t p + ys.length) ∧
      strayEnd (wrapsub t p + ys.length) < 2 ^ 63 := by
    unfold strayEnd
    split <;> omega
  have hp : p = offset p 0 := (offset_zero p).symm
  obtain ⟨hwpos, hrpos⟩ := RBInput.wrote_positions sh s.1 (hr.trans hp) hend h0.1
    (by omega) hwait
  obtain ⟨hr0, hr1, hr2⟩ := RBInput.readableAfter_bounds sh
    (RBInput.storedInput sh s.1 t ys s.2) (RBInput.findsHole t s.2) p h0.1
  refine ⟨_, hr0, ?_, hrpos, ?_, ?_, (RingCall.after_valid sh _ s).trans hvalid⟩
  · rw [max_eq_left h0.1]
    exact hwpos
  · rw [max_eq_left h0.1]
    exact hr1
  · rw [max_eq_left h0.1, RingCall.after_holeFixWait,
      ← RBInput.storedInput_holeFixWait sh s.1 t ys s.2]
    exact hr2

omit [Inhabited α] in
theorem inOrder_append (t : Usize) (ps qs : List (List α)) :
    inOrder t (ps ++ qs) = inOrder t ps ++ inOrder (offset t ps.flatten.length) qs := by
  induction ps generalizing t with
  | nil => simp [inOrder]
  | cons xs ps ih =>
      have hlen : ((xs :: ps).flatten.length : Int) = xs.length + ps.flatten.length := by
        rw [List.flatten_cons, List.length_append]
        omega
      rw [List.cons_append, inOrder, ih, inOrder, List.cons_append, add_ofNat, offset_add, hlen]

end Stream

/-! ## Recovery -/

/-- The position of the stream after the packets `pre` from `startTime` on. -/
def streamPos (startTime : Usize) (pre : List (List α)) : Usize :=
  offset startTime pre.flatten.length

/-- Packets in order up to `streamPos startTime pre`, a stray packet at `t`,
and more packets that continue the stream: the last of them is read, item by
item, at its own timestamps. -/
def Recovers (sh : RingShared) (startTime holeFixWait : Usize) (pre : List (List α)) (t : Usize)
    (ys : List α) (mid : List (List α)) (last : List α) : Prop :=
  ∃ s, runCalls sh (inOrder startTime pre ++
      .write t ys :: inOrder (streamPos startTime pre) (mid ++ [last]))
      (newOwned startTime holeFixWait) = some s ∧
    ∀ (j : Nat) (hj : j < last.length), RBOutput.sampleAt sh s.2
      (offset (streamPos startTime pre) (mid.flatten.length + j)) = some last[j]

/-- What the whole run comes to. -/
theorem run_stray {sh : RingShared} (startTime holeFixWait : Usize)
    (hwait : holeFixWait.toNat < 2 ^ 63) {pre mid : List (List α)} (t : Usize) {ys last : List α}
    (hshort : ∀ xs ∈ ys :: last :: (pre ++ mid), xs.length < sh.itemsSize) :
    ∃ r s, runCalls sh (inOrder startTime pre ++
        .write t ys :: inOrder (streamPos startTime pre) (mid ++ [last]))
        (newOwned startTime holeFixWait) = some s ∧
      s.1.holeFixWait = holeFixWait ∧
      Follows (streamPos startTime pre)
        (strayEnd (wrapsub t (streamPos startTime pre) + ys.length))
        (mid.flatten.length + last.length) r s ∧
      (holeFixWait.toNat ≤ sh.itemsSize ∨
        strayEnd (wrapsub t (streamPos startTime pre) + ys.length) ≤ sh.itemsSize →
          mid.flatten.length + last.length ≤ r) ∧
      ∀ (j : Nat) (hj : j < last.length), s.2.buffer
        (sh.slotAt (offset (streamPos startTime pre) (mid.flatten.length + j)) * sh.stride) =
          last[j] := by
  have hys := hshort ys List.mem_cons_self
  have hlast := hshort last (List.mem_cons_of_mem _ List.mem_cons_self)
  have hpre : ∀ xs ∈ pre, xs.length < sh.itemsSize := fun xs hxs => hshort xs (by simp [hxs])
  have hmid : ∀ xs ∈ mid, xs.length < sh.itemsSize := fun xs hxs => hshort xs (by simp [hxs])
  obtain ⟨p, hp⟩ : ∃ p, p = streamPos startTime pre := ⟨_, rfl⟩
  obtain ⟨w₀, hw₀⟩ : ∃ w₀, w₀ = strayEnd (wrapsub t p + ys.length) := ⟨_, rfl⟩
  have hw₀lt : w₀ < 2 ^ 63 := by
    rw [hw₀, strayEnd]
    split <;> omega
  obtain ⟨s₀, hrun₀, hin₀, hvalid₀, hw, hr⟩ := inOrder_clean hpre startTime holeFixWait hwait
  have hp' : offset startTime pre.flatten.length = p := hp.symm
  rw [hp'] at hw hr
  obtain ⟨r₁, hr₁, hf₁⟩ := stray_follows (t := t) hys hvalid₀ hw hr (by rw [hin₀]; exact hwait)
  have hin₁ := (RingCall.after_holeFixWait sh (.write t ys) s₀).trans hin₀
  rw [← hw₀] at hf₁
  obtain ⟨r₂, s₂, hrun₂, hin₂, hf₂, hcaught⟩ := inOrder_follows hmid hw₀lt (Int.le_refl 0)
    (by rw [hin₁]; exact hwait) hf₁
  rw [hin₁] at hin₂ hcaught
  rw [offset_zero] at hrun₂
  rw [Int.zero_add] at hf₂ hcaught
  have hf₃ := hf₂.write hw₀lt (by omega) (by rw [hin₂]; exact hwait) hlast
  have hin₃ := (RingCall.after_holeFixWait sh
    (.write (offset p mid.flatten.length) last) s₂).trans hin₂
  rw [← hp, ← hw₀]
  refine ⟨_, _, ?_, hin₃, hf₃, fun hlap => ?_, fun j hj => ?_⟩
  · rw [runCalls_append, hrun₀, Option.bind_some, runCalls_write hys, inOrder_append,
      runCalls_append, hrun₂, Option.bind_some, inOrder, runCalls_write hlast]
    rfl
  · have hcaught₂ := hcaught hr₁ (hlap.imp_right fun h => by omega)
    rw [Int.zero_add] at hcaught₂
    refine followed_caught hf₂.valid hcaught₂ hlast ?_
    rw [hin₂]
    exact hlap.imp_right fun h => by omega
  · rw [← offset_add_ofNat]
    exact RBInput.wrote_cell sh s₂.1 hf₂.valid _ hlast hj

/-- The newest packet is readable again once the stream is within a lap of the
end of the stray packet (which `2 ^ 63` or more ahead counts as late). This is
exact unless the stray packet is more than a lap ahead and `hole_fix_wait`
longer than the ring, where scans of more than a lap miss slots; there it is
still necessary. -/
theorem recovers_iff (length : Nat) (hlen : length ≤ 2 ^ 61) (startTime holeFixWait : Usize)
    (hwait : holeFixWait.toNat < 2 ^ 63) (pre : List (List α)) (t : Usize) (ys : List α)
    (mid : List (List α)) (last : List α) (hne : last ≠ [])
    (hshort : ∀ xs ∈ ys :: last :: (pre ++ mid),
      xs.length < (ownedShared length hlen).itemsSize) :
    (holeFixWait.toNat ≤ (ownedShared length hlen).itemsSize ∨
        wrapsub t (streamPos startTime pre) + ys.length ≤ (ownedShared length hlen).itemsSize ∨
        2 ^ 63 ≤ wrapsub t (streamPos startTime pre) + ys.length →
      (Recovers (ownedShared length hlen) startTime holeFixWait pre t ys mid last ↔
        wrapsub t (streamPos startTime pre) + ys.length ≤
            mid.flatten.length + (ownedShared length hlen).itemsSize ∨
          2 ^ 63 ≤ wrapsub t (streamPos startTime pre) + ys.length)) ∧
    (Recovers (ownedShared length hlen) startTime holeFixWait pre t ys mid last →
      wrapsub t (streamPos startTime pre) + ys.length ≤
          mid.flatten.length + (ownedShared length hlen).itemsSize ∨
        2 ^ 63 ≤ wrapsub t (streamPos startTime pre) + ys.length) := by
  obtain ⟨sh, hsh⟩ : ∃ sh, sh = ownedShared length hlen := ⟨_, rfl⟩
  have hown : sh.unconditionalRead = false := by rw [hsh]; rfl
  rw [← hsh] at hshort ⊢
  obtain ⟨a, ha⟩ : ∃ a, a = wrapsub t (streamPos startTime pre) + ys.length := ⟨_, rfl⟩
  obtain ⟨r, s, hrun, hin, hf, hcaught, hcell⟩ := run_stray startTime holeFixWait hwait t hshort
  rw [← ha] at hf hcaught ⊢
  have hk : 0 < last.length := List.length_pos_iff.mpr hne
  have hlast := hshort last (List.mem_cons_of_mem _ List.mem_cons_self)
  have hlt : strayEnd a < 2 ^ 63 := by
    rw [strayEnd]
    split <;> omega
  have hread : ∀ (j : Nat) (hj : j < last.length),
      RBOutput.sampleAt sh s.2 (offset (streamPos startTime pre) (mid.flatten.length + j)) =
        some last[j] ↔ (mid.flatten.length + j : Int) < r ∧
          max (strayEnd a) (mid.flatten.length + last.length) ≤
            mid.flatten.length + j + sh.itemsSize := fun j hj => by
    rw [hf.sampleAt hown hlt (by rw [hin]; exact hwait) (by omega) (by omega) (by omega),
      hcell j hj]
    simp
  have hneed : Recovers sh startTime holeFixWait pre t ys mid last →
      a ≤ mid.flatten.length + sh.itemsSize ∨ 2 ^ 63 ≤ a := by
    rintro ⟨s', hrun', hall⟩
    obtain rfl : s' = s := Option.some.inj (hrun'.symm.trans hrun)
    have hfirst := ((hread 0 hk).mp (hall 0 hk)).2
    rw [strayEnd] at hfirst
    split at hfirst <;> omega
  refine ⟨fun hlap => ⟨hneed, fun hnear => ⟨s, hrun, fun j hj => (hread j hj).mpr ?_⟩⟩, hneed⟩
  have hend : strayEnd a ≤ mid.flatten.length + sh.itemsSize := by
    rw [strayEnd]
    split <;> omega
  have hr := hcaught (hlap.imp_right fun h => by
    rw [strayEnd]
    split <;> omega)
  omega

/-- A stray packet eight times ahead of a ring of four. -/
theorem recovers_iff_eightAhead :
    Recovers (ownedShared 4 (by decide)) 0 2 [[1, 2]] 10 [9] [[3, 4, 5], [6, 7, 8]]
      ([9, 10, 11] : List Int) :=
  ((recovers_iff 4 (by decide) 0 2 (by decide) [[1, 2]] 10 [9] [[3, 4, 5], [6, 7, 8]] [9, 10, 11]
    (by decide) (by decide)).1 (.inl (by decide))).mpr (.inl (by decide))

/-- A stray packet a thousand times ahead of a ring of four; nine more samples
in order, and the newest of them is refused. -/
theorem stray_thousand_read :
    (runCalls (ownedShared 4 (by decide)) (inOrder 0 [[1, 2]] ++
      .write 1000 [9] :: inOrder (streamPos 0 [[(1 : Int), 2]])
        ([[3, 4, 5], [6, 7, 8]] ++ [[9, 10, 11]]))
      (newOwned 0 2 : RingState Int)).map (fun s =>
        RBOutput.sampleAt (ownedShared 4 (by decide)) s.2 8) = some none := by
  decide

theorem stray_mutes :
    ¬∀ (pre : List (List Int)) (t : Usize) (ys : List Int) (mid : List (List Int))
      (last : List Int), last ≠ [] →
      (∀ xs ∈ ys :: last :: (pre ++ mid), xs.length < (ownedShared 4 (by decide)).itemsSize) →
      2 * (ownedShared 4 (by decide)).itemsSize < mid.flatten.length + last.length →
      Recovers (ownedShared 4 (by decide)) 0 2 pre t ys mid last := by
  intro h
  obtain ⟨s, hrun, hread⟩ := h [[1, 2]] 1000 [9] [[3, 4, 5], [6, 7, 8]] [9, 10, 11] (by decide)
    (by decide) (by decide)
  obtain ⟨s', hrun', hmute⟩ := Option.map_eq_some_iff.mp stray_thousand_read
  obtain rfl : s' = s := Option.some.inj (hrun'.symm.trans hrun)
  have hfirst := hread 0 (by decide)
  rw [show offset (streamPos 0 [[(1 : Int), 2]])
    (([[3, 4, 5], [6, 7, 8]] : List (List Int)).flatten.length + (0 : Nat)) = 8 by decide,
    hmute] at hfirst
  cases hfirst

end Inferno
