import Inferno.RingWriter
import Inferno.RingReader

/-!
# The ring buffer as a timeline

Calls made one after the other. A run of calls that all fit the ring does to
the memory what `Timeline.write` and `Timeline.close` do to the timeline, and
a read then returns the timeline's values on exactly the window
`[writing_pos - N, readable_pos)`. Calls in the window fit; so do longer jumps
as long as the walks they cause still cover the new window, and the last
section shows what is read when one does not.
-/

namespace Inferno

open Serial

variable {α : Type} [Inhabited α]

/-! ## Calls -/

/-- A call of the writer. -/
inductive RingCall (α : Type) where
  | write (startTimestamp : Usize) (input : List α)
  | close (untilPos : Usize)

/-- The writer with the memory it writes. -/
abbrev RingState (α : Type) := RBInput × RingMem α

namespace RingCall

def prog (sh : RingShared) (inp : RBInput) : RingCall α → RingProg α RBInput
  | write ts xs => do
      let r ← RBInput.writeFromAt sh inp ts xs
      pure r.1
  | close u => do
      RBInput.closeItemsUntil sh inp u
      pure inp

/-- The call with nothing in between; `none` is a panic. -/
def run (sh : RingShared) (c : RingCall α) (s : RingState α) : Option (RingState α) :=
  (c.prog sh s.1).exec ringMem s.2

/-- What the call means. -/
def effect (tl : Timeline α) : RingCall α → Timeline α
  | write ts xs => tl.write ts xs
  | close u => tl.close u

/-- The condition under which the walks of the call do their work. -/
def Fits (sh : RingShared) (s : RingState α) : RingCall α → Prop
  | write ts xs => RBInput.FitsWrite sh s.1 s.2 ts xs.length
  | close u => RBInput.FitsClose sh s.2 u

instance (sh : RingShared) (s : RingState α) : (c : RingCall α) → Decidable (c.Fits sh s)
  | write ts xs => inferInstanceAs (Decidable (RBInput.FitsWrite sh s.1 s.2 ts xs.length))
  | close u => inferInstanceAs (Decidable (RBInput.FitsClose sh s.2 u))

/-- A call within the window of one lap: a write shorter than the ring that
starts at most a lap behind the writing position and ends at most a lap ahead
of the readable one, a close at most a lap ahead of the writing position. The
differences are wrapping ones of true differences below `2^63`. -/
def InWindow (sh : RingShared) (s : RingState α) : RingCall α → Prop
  | write ts xs => xs.length < sh.itemsSize ∧ -sh.itemsSize ≤ wrapsub ts s.2.writingPos ∧
      wrapsub ts s.2.writingPos + xs.length + wrapsub s.2.writingPos s.2.readablePos < 2 ^ 63 ∧
      wrapsub (ts + BitVec.ofNat 64 xs.length) s.2.readablePos ≤ sh.itemsSize
  | close u => wrapsub u s.2.writingPos ≤ sh.itemsSize

instance (sh : RingShared) (s : RingState α) : (c : RingCall α) → Decidable (c.InWindow sh s)
  | write _ _ => inferInstanceAs (Decidable (_ ∧ _))
  | close _ => inferInstanceAs (Decidable (_ ≤ _))

variable {sh : RingShared} {inp : RBInput} {R : Int} {s : Traced α}

/-- One call: the step of every run below. -/
theorem prog_runs (h : RBInput.Steady sh inp R s) {c : RingCall α}
    (hfit : c.Fits sh (inp, s.mem)) :
    Runs sh (c.prog sh inp) (fun inp' s' => ∃ R', R ≤ R' ∧ RBInput.Steady sh inp' R' s' ∧
      inp'.holeFixWait = inp.holeFixWait ∧ s'.tl = c.effect s.tl) s := by
  cases c with
  | write ts xs =>
      refine .bind_of (RBInput.writeFromAt_runs h hfit) ?_
      rintro ⟨inp', r⟩ s' ⟨R', hR', hst, hw, _, htl⟩
      exact .ret ⟨R', hR', hst, hw, htl⟩
  | close u =>
      refine .bind_of (RBInput.closeItemsUntil_runs h hfit) ?_
      rintro _ s' ⟨R', hR', hst, htl⟩
      exact .ret ⟨R', hR', hst, rfl, htl⟩

theorem InWindow.fits (h : RBInput.Steady sh inp R s) (hwait : inp.holeFixWait.toNat ≤ sh.itemsSize)
    {c : RingCall α} (hc : c.InWindow sh (inp, s.mem)) : c.Fits sh (inp, s.mem) := by
  have hN := sh.itemsSize_le
  have hd := h.tracks.wrapsub_eq
  have hle := h.tracks.le_base
  have hlag := h.wait
  cases c with
  | write ts xs =>
      obtain ⟨hn, hlate, hnear, hwin⟩ := hc
      obtain ⟨T, hT⟩ : ∃ T, T = s.tl.place ts := ⟨_, rfl⟩
      have hts : ts = BitVec.ofInt 64 T := by rw [hT]; exact (Serial.ofInt_place _ _).symm
      have hg : wrapsub ts s.mem.writingPos = T - s.tl.base := by
        rw [hT, h.tracks.writing, Timeline.place, Serial.place, wrapsub]
        omega
      simp only [hg, hd] at hlate hnear
      have hend : wrapsub (ts + BitVec.ofNat 64 xs.length) s.mem.readablePos =
          T + xs.length - R := by
        rw [hts, Serial.ofInt_add_ofNat, h.tracks.reading]
        exact wrapsub_ofInt ⟨by omega, by omega⟩
      simp only [hend] at hwin
      refine ⟨hn, ?_, ?_, ?_, ?_⟩ <;> simp only [hg, hd]
      · exact hlate
      · omega
      · exact fun hpos => covers_of_le (by omega) (by omega)
      · exact fun _ hpos => covers_of_le (by omega) (by omega)
  | close u =>
      have hu : wrapsub u s.mem.writingPos ≤ sh.itemsSize := hc
      refine ⟨?_, fun hpos => covers_of_le (by omega) hu⟩
      simp only [hd]
      exact fun hpos => covers_of_le (by omega) (by omega)

end RingCall

/-! ## Runs of calls -/

/-- Calls in a row; `none` if one panics. -/
def runCalls (sh : RingShared) : List (RingCall α) → RingState α → Option (RingState α)
  | [], s => some s
  | c :: cs, s => (c.run sh s).bind (runCalls sh cs)

/-- Every call meets its condition in the state it is made in. -/
def Along (sh : RingShared) (P : RingState α → RingCall α → Prop) :
    List (RingCall α) → RingState α → Prop
  | [], _ => True
  | c :: cs, s => P s c ∧ ∀ s' ∈ c.run sh s, Along sh P cs s'

instance instDecidableAlong (sh : RingShared) (P : RingState α → RingCall α → Prop)
    [∀ s c, Decidable (P s c)] : (cs : List (RingCall α)) → (s : RingState α) →
    Decidable (Along sh P cs s)
  | [], _ => isTrue trivial
  | c :: cs, s =>
      have : Decidable (∀ s' ∈ c.run sh s, Along sh P cs s') :=
        match h : c.run sh s with
        | none => isTrue fun _ hs => by cases hs
        | some s' =>
            match instDecidableAlong sh P cs s' with
            | isTrue ht => isTrue fun _ hs => by cases hs; exact ht
            | isFalse hf => isFalse fun hall => hf (hall s' rfl)
      inferInstanceAs (Decidable (_ ∧ _))

/-- The timeline of a ring that starts at `startTime`. -/
def Timeline.fresh (startTime : Usize) : Timeline α where
  base := startTime.toInt
  sample := fun _ => none

def Timeline.runCalls (tl : Timeline α) (cs : List (RingCall α)) : Timeline α :=
  cs.foldl RingCall.effect tl

/-- What `new_owned` returns, as the writer's side of it. -/
def newOwned (startTime holeFixWait : Usize) : RingState α :=
  (freshInput holeFixWait, ownedMem startTime)

theorem steady_newOwned {sh : RingShared} {startTime holeFixWait : Usize}
    (hwait : holeFixWait.toNat ≤ 2 ^ 62) :
    RBInput.Steady sh (freshInput holeFixWait) startTime.toInt
      (⟨ownedMem startTime, .fresh startTime⟩ : Traced α) where
  tracks := {
    valid := rfl
    writing := (BitVec.ofInt_toInt (x := startTime)).symm
    reading := (BitVec.ofInt_toInt (x := startTime)).symm
    le_base := Int.le_refl _
    lag := by simp [Timeline.fresh]
    kept := fun _ _ _ hs => by cases hs
    ready_iff := fun t _ hhi hR _ => absurd hR (by simp only [Timeline.fresh] at hhi; omega)
    silent := fun _ _ _ _ => rfl
    future := fun _ _ => rfl }
  wait := by simp [Timeline.fresh, freshInput]
  wait_le := hwait

/-- A run of fitting calls, at the level of the timeline. -/
theorem runCalls_steady {sh : RingShared} {cs : List (RingCall α)} {inp : RBInput} {R : Int}
    {s : Traced α} (h : RBInput.Steady sh inp R s)
    (hcs : Along sh (RingCall.Fits sh) cs (inp, s.mem)) :
    ∃ inp' R' s', Inferno.runCalls sh cs (inp, s.mem) = some (inp', s'.mem) ∧
      RBInput.Steady sh inp' R' s' ∧ inp'.holeFixWait = inp.holeFixWait ∧
      s'.tl = s.tl.runCalls cs := by
  induction cs generalizing inp R s with
  | nil => exact ⟨inp, R, s, rfl, h, rfl, rfl⟩
  | cons c cs ih =>
      obtain ⟨hc, hrest⟩ := hcs
      obtain ⟨inp1, s1, hexec, ⟨R1, _, hst1, hw1, htl1⟩, _⟩ :=
        Prog.Wp.exec (fun _ => rfl) (RingCall.prog_runs h hc)
      have hrun : c.run sh (inp, s.mem) = some (inp1, s1.mem) := by
        rw [RingCall.run, exec_mem, hexec]
        rfl
      obtain ⟨inp2, R2, s2, hruns, hst2, hw2, htl2⟩ := ih hst1 (hrest _ hrun)
      refine ⟨inp2, R2, s2, ?_, hst2, hw2.trans hw1, ?_⟩
      · rw [Inferno.runCalls, hrun]
        exact hruns
      · rw [htl2, htl1]
        rfl

/-- Calls in the window fit, at every point of a run. -/
theorem Along.fits {sh : RingShared} {cs : List (RingCall α)} {inp : RBInput} {R : Int}
    {s : Traced α} (h : RBInput.Steady sh inp R s)
    (hwait : inp.holeFixWait.toNat ≤ sh.itemsSize)
    (hcs : Along sh (RingCall.InWindow sh) cs (inp, s.mem)) :
    Along sh (RingCall.Fits sh) cs (inp, s.mem) := by
  induction cs generalizing inp R s with
  | nil => trivial
  | cons c cs ih =>
      obtain ⟨hc, hrest⟩ := hcs
      have hfit := hc.fits h hwait
      refine ⟨hfit, ?_⟩
      obtain ⟨inp1, s1, hexec, ⟨R1, _, hst1, hw1, _⟩, _⟩ :=
        Prog.Wp.exec (fun _ => rfl) (RingCall.prog_runs h hfit)
      have hrun : c.run sh (inp, s.mem) = some (inp1, s1.mem) := by
        rw [RingCall.run, exec_mem, hexec]
        rfl
      rintro s' hs'
      obtain rfl : s' = (inp1, s1.mem) := by
        rw [hrun] at hs'
        exact (Option.some.inj hs').symm
      exact ih hst1 (by rw [hw1]; exact hwait) (hrest _ hrun)

/-! ## Reading alone -/

omit [Inhabited α] in
theorem traced_load {c : RingOp α} (hc : c.IsLoad) (s : Traced α) : (traced c s).2 = s := by
  cases c <;> first | rfl | cases hc

/-- The reader alone: every load sees the one memory there is. -/
def alone : @Reading α (Traced α) traced Eq where
  ring := id
  Seen s x := x = s
  Later := Eq
  Keeps := Eq
  later_refl _ := rfl
  later_trans := Eq.trans
  rely_refl _ := rfl
  rely_later h := h
  rely_seen h hx := h ▸ hx
  load_answer _ _ := rfl
  load_ring s hc := traced_load hc s
  load_keeps s hc := (traced_load hc s).symm
  load_seen s x hc hx := by
    rw [traced_load hc s]
    exact hx.elim id id

omit [Inhabited α] in
theorem eq_of_steps {s s' : Traced α} (h : Relation.ReflTransGen Eq s s') : s' = s := by
  induction h with
  | refl => rfl
  | tail _ hstep ih => exact hstep.symm.trans ih

/-- The walk of a copy of `n` items, however large the ring: at most `n` slots. -/
theorem RingShared.forInRing_copy (sh : RingShared) (t₀ : Usize) (n : Nat) :
    (forInRing sh.itemsSize t₀ (t₀ + BitVec.ofNat 64 n)).length ≤ n ∧
      ∀ i ∈ forInRing sh.itemsSize t₀ (t₀ + BitVec.ofNat 64 n), i < sh.itemsSize := by
  have hlen : (n % 2 ^ 64 : Nat) ≤ n := Nat.mod_le _ _
  have hlt : n % 2 ^ 64 < 2 ^ 64 := Nat.mod_lt _ (by decide)
  have hfin : t₀ + BitVec.ofNat 64 n = BitVec.ofInt 64 (t₀.toInt + (n % 2 ^ 64 : Nat)) := by
    rw [BitVec.ofInt_add, BitVec.ofInt_toInt, BitVec.ofInt_natCast]
    congr 1
    exact BitVec.eq_of_toNat_eq (by simp)
  have hwalk := @RingShared.forInRing_ofInt sh t₀.toInt (n % 2 ^ 64 : Nat) (by omega) (by omega)
  rw [BitVec.ofInt_toInt, ← hfin] at hwalk
  rw [hwalk]
  constructor
  · have hvisits := @visits_le sh.itemsSize sh.itemsSize_pos (n % 2 ^ 64 : Nat) (by omega)
    rw [List.length_map, List.length_range]
    omega
  · intro i hi
    obtain ⟨j, _, rfl⟩ := List.mem_map.mp hi
    exact Serial.slot_lt sh.itemsSize_pos _

/-- A read with nothing in between returns the timeline: its useful indices
are those of `[t₀, t₀ + len)` in `[writing_pos - N, readable_pos)`, none if the
readable position is not within a lap of `t₀`, and each holds the value of its
time. -/
def ReadsTimeline (sh : RingShared) (m : RingMem α) (tl : Timeline α) : Prop :=
  ∀ (t₀ : Usize) (out : List α), ∃ out' r,
    (RBOutput.readAt sh t₀ out).exec ringMem m = some ((out', r), m) ∧
    out'.length = out.length ∧
    (∀ i, r.Useful i ↔ i < out.length ∧ 0 ≤ wrapsub m.readablePos t₀ ∧
      wrapsub m.readablePos t₀ ≤ sh.itemsSize ∧
      wrapsub m.writingPos t₀ - sh.itemsSize ≤ i ∧ i < wrapsub m.readablePos t₀) ∧
    ∀ i, r.Useful i → out'[i]? = some (tl.value (tl.place t₀ + i))

theorem readsTimeline_of_sound {sh : RingShared} {s : Traced α}
    (hown : sh.unconditionalRead = false) (h : Sound sh s)
    (hlag : s.tl.base - s.readable ≤ 2 ^ 62) : ReadsTimeline sh s.mem s.tl := by
  intro t₀ out
  have hN := sh.itemsSize_le
  have hle := h.le_base
  -- `T₀` is the time `t₀` stands for, seen from the readable position
  obtain ⟨T₀, hT₀⟩ : ∃ T₀, T₀ = s.readable - wrapsub s.mem.readablePos t₀ := ⟨_, rfl⟩
  have ht₀ : BitVec.ofInt 64 T₀ = t₀ := by
    rw [hT₀, ← Serial.ofInt_sub, ← h.reading, ofInt_wrapsub]
    exact sub_sub_cancel _ _
  have hreads := RBOutput.readAt_reads alone hown T₀ out
    (fun x (hx : s = x) => hx ▸ h.valid)
  rw [ht₀] at hreads
  obtain ⟨⟨out', r⟩, s', hexec, hout, hguar⟩ := Prog.Wp.exec (fun _ => rfl) hreads
  obtain rfl := eq_of_steps hguar
  refine ⟨out', r, ?_, ?_⟩
  · rw [exec_mem, hexec]
    rfl
  cases hout with
  | refused x₁ hseen hlen hres =>
      obtain rfl : x₁ = s' := hseen
      obtain ⟨rfl, rfl⟩ := Prod.mk.inj hres
      unfold RBOutput.copyLen at hlen
      split at hlen
      · next hin =>
          refine ⟨rfl, fun i => ?_, fun i hi => absurd hi.2 (Nat.not_lt_zero i)⟩
          simp only [ReadResult.Useful]
          omega
      · cases hlen
  | copied x₁ x₂ n hseen₁ hseen₂ hlen _ hlength huseful hitem =>
      obtain rfl : x₁ = s' := hseen₁
      obtain rfl : x₂ = x₁ := hseen₂
      unfold RBOutput.copyLen at hlen
      split at hlen
      · cases hlen
      · next hin =>
          obtain rfl := Option.some.inj hlen
          simp only at huseful
          have hwr : wrapsub x₂.mem.writingPos t₀ = x₂.tl.base - T₀ := by
            rw [h.writing, ← ht₀]
            exact wrapsub_ofInt ⟨by omega, by omega⟩
          have hplace : x₂.tl.place t₀ = T₀ := by
            rw [← ht₀]
            exact Serial.place_ofInt (by decide) ⟨by omega, by omega⟩
          refine ⟨hlength, fun i => ?_, fun i hi => ?_⟩
          · rw [huseful, RBOutput.usefulOf_useful]
            omega
          · rw [huseful, RBOutput.usefulOf_useful] at hi
            obtain ⟨x, rfl, _, _, heq⟩ := hitem i hi.1
            rw [heq, hplace, h.faithful (T₀ + i) (by omega) (by omega)]

/-! ## The laws -/

theorem RBInput.Steady.readsTimeline {sh : RingShared} {inp : RBInput} {R : Int} {s : Traced α}
    (h : RBInput.Steady sh inp R s) (hown : sh.unconditionalRead = false) :
    ReadsTimeline sh s.mem s.tl := by
  have hlag := h.wait
  have hmax := h.wait_le
  refine readsTimeline_of_sound hown h.tracks.sound ?_
  rw [h.tracks.readable_eq]
  omega

/-- A run of calls in the window never panics, and afterwards the ring reads
as the timeline of the calls. -/
theorem run_refines_timeline (length : Nat) (hlen : length ≤ 2 ^ 61)
    (startTime holeFixWait : Usize)
    (hwait : holeFixWait.toNat ≤ (ownedShared length hlen).itemsSize)
    (calls : List (RingCall α))
    (hcalls : Along (ownedShared length hlen) (RingCall.InWindow (ownedShared length hlen)) calls
      (newOwned startTime holeFixWait)) :
    ∃ inp m, runCalls (ownedShared length hlen) calls (newOwned startTime holeFixWait) =
        some (inp, m) ∧
      ReadsTimeline (ownedShared length hlen) m
        ((Timeline.fresh startTime).runCalls calls) := by
  have hN := (ownedShared length hlen).itemsSize_le
  have h0 : RBInput.Steady (ownedShared length hlen) (freshInput holeFixWait) startTime.toInt
      (⟨ownedMem startTime, .fresh startTime⟩ : Traced α) :=
    steady_newOwned (by omega)
  obtain ⟨inp, R, s, hrun, hst, _, htl⟩ := runCalls_steady h0 (hcalls.fits h0 hwait)
  refine ⟨inp, s.mem, hrun, ?_⟩
  rw [← htl]
  exact hst.readsTimeline rfl

/-- A ring of four slots: a hole made, fixed late, and closed beyond the end. -/
def shortRun : List (RingCall Nat) :=
  [.write 0 [10, 11], .write 3 [13], .write 2 [12], .write 4 [14, 15, 16], .close 9]

theorem run_refines_timeline_shortRun :
    ∃ inp m, runCalls (ownedShared 4 (by decide)) shortRun (newOwned 0 2) = some (inp, m) ∧
      ReadsTimeline (ownedShared 4 (by decide)) m ((Timeline.fresh 0).runCalls shortRun) :=
  run_refines_timeline 4 (by decide) 0 2 (by decide) shortRun (by decide)

/-- No useful item of any read was written for another time than its own. -/
def NoStale (sh : RingShared) (m : RingMem α) (tl : Timeline α) : Prop :=
  ∀ (t₀ : Usize) (out out' : List α) r m',
    (RBOutput.readAt sh t₀ out).exec ringMem m = some ((out', r), m') → ∀ i, r.Useful i →
      ∃ x, out'[i]? = some x ∧ (tl.sample (tl.place t₀ + i) = some x ∨ x = default)

theorem ReadsTimeline.noStale {sh : RingShared} {m : RingMem α} {tl : Timeline α}
    (h : ReadsTimeline sh m tl) : NoStale sh m tl := by
  intro t₀ out out' r m' hexec i hi
  obtain ⟨out₁, r₁, hexec₁, _, _, hval⟩ := h t₀ out
  rw [hexec] at hexec₁
  obtain ⟨⟨rfl, rfl⟩, rfl⟩ : (out' = out₁ ∧ r = r₁) ∧ m' = m := by simpa using hexec₁
  refine ⟨_, hval i hi, ?_⟩
  cases hs : tl.sample (tl.place t₀ + i) with
  | none => exact .inr (Timeline.value_of_none hs)
  | some x => exact .inl (by rw [Timeline.value_of_some hs])

theorem Along.of_prefix {sh : RingShared} {P : RingState α → RingCall α → Prop}
    {pre post : List (RingCall α)} {s : RingState α} (h : Along sh P (pre ++ post) s) :
    Along sh P pre s := by
  induction pre generalizing s with
  | nil => trivial
  | cons c pre ih => exact ⟨h.1, fun s' hs' => ih (h.2 s' hs')⟩

/-- Whatever the gaps, as long as every walk covers the new window nothing
stale is read, at any point of a run. -/
theorem run_noStale (length : Nat) (hlen : length ≤ 2 ^ 61) (startTime holeFixWait : Usize)
    (hwait : holeFixWait.toNat ≤ 2 ^ 62) (calls : List (RingCall α))
    (hcalls : Along (ownedShared length hlen) (RingCall.Fits (ownedShared length hlen)) calls
      (newOwned startTime holeFixWait)) (pre : List (RingCall α)) (hpre : pre <+: calls) :
    ∃ inp m, runCalls (ownedShared length hlen) pre (newOwned startTime holeFixWait) =
        some (inp, m) ∧
      NoStale (ownedShared length hlen) m ((Timeline.fresh startTime).runCalls pre) := by
  obtain ⟨post, rfl⟩ := hpre
  obtain ⟨inp, R, s, hrun, hst, _, htl⟩ := runCalls_steady (steady_newOwned hwait)
    hcalls.of_prefix
  refine ⟨inp, s.mem, hrun, ?_⟩
  rw [← htl]
  exact (hst.readsTimeline rfl).noStale

/-- A full ring of sixteen, then one sample seventeen times on: the walk that
marks the hole `[16, 33)` visits one slot. -/
def gapRun : List (RingCall Nat) :=
  [.write 0 [100, 101, 102, 103, 104, 105, 106, 107],
    .write 8 [108, 109, 110, 111, 112, 113, 114, 115], .write 33 [133]]

theorem gapRun_read :
    ((runCalls (ownedShared 16 (by decide)) gapRun (newOwned 0 4)).bind fun s =>
      (RBOutput.readAt (ownedShared 16 (by decide)) 30 [0, 0]).exec ringMem s.2).map (·.1) =
      some ([114, 115], ⟨0, 2⟩) := by
  decide

theorem stale_after_gapRun :
    ¬∀ inp m, runCalls (ownedShared 16 (by decide)) gapRun (newOwned 0 4) = some (inp, m) →
      NoStale (ownedShared 16 (by decide)) m ((Timeline.fresh 0).runCalls gapRun) := by
  intro h
  have hread := gapRun_read
  obtain ⟨⟨inp, m⟩, hrun⟩ : ∃ s, runCalls (ownedShared 16 (by decide)) gapRun (newOwned 0 4) =
      some s := by
    cases hrun : runCalls (ownedShared 16 (by decide)) gapRun (newOwned 0 4) with
    | none => rw [hrun] at hread; cases hread
    | some s => exact ⟨s, rfl⟩
  rw [hrun, Option.bind_some] at hread
  obtain ⟨⟨⟨out', r⟩, m'⟩, hexec, heq⟩ := Option.map_eq_some_iff.mp hread
  obtain ⟨rfl, rfl⟩ := Prod.mk.inj heq
  obtain ⟨x, hx, hor⟩ := h inp m hrun _ _ _ _ _ hexec 0 ⟨Nat.le_refl _, by decide⟩
  obtain rfl : 114 = x := by simpa using hx
  revert hor
  decide

/-- Jumps of seven and eight times over a ring of four slots whose walks still
visit every slot of the new window. -/
def longJumps : List (RingCall Nat) := [.write 0 [10, 11], .write 9 [19], .close 18]

theorem run_noStale_longJumps :
    ∃ inp m, runCalls (ownedShared 4 (by decide)) longJumps (newOwned 0 1) = some (inp, m) ∧
      NoStale (ownedShared 4 (by decide)) m ((Timeline.fresh 0).runCalls longJumps) :=
  run_noStale 4 (by decide) 0 1 (by decide) longJumps (by decide) longJumps (List.prefix_refl _)

end Inferno
