import Inferno.RingTimeline

/-!
# The writer's programs

One specification for each piece of `write_from_at` and `close_items_until`,
in the rely-guarantee logic with a silent environment (the writer is the only
one who stores). Each says what the piece does to `Tracks` and, through
`Guar`, what every single action of it leaves behind for a reader.

`Fits` is the condition under which a call does what it should: no late
packet of more than a lap, true differences below `2^63`, and every walk of
the ring covers the slots of the new window it is there for. Calls within the
window (`InWindow`) fit; a jump of more than a lap in general does not.
-/

namespace Inferno

open Serial

variable {α : Type} [Inhabited α]

/-! ## Running the writer -/

/-- The program, alone among stores: every action keeps `Guar`. -/
def Runs {β : Type} (sh : RingShared) (p : RingProg α β) (Q : β → Traced α → Prop)
    (s : Traced α) : Prop :=
  Prog.Wp traced Eq (Guar sh) p Q s

namespace Runs

variable {β γ : Type} {sh : RingShared} {s : Traced α} {Q : β → Traced α → Prop}

theorem ret {b : β} (h : Q b s) : Runs sh (Prog.ret b) Q s := by
  rintro s' rfl
  exact h

theorem bind {p : RingProg α γ} {f : γ → RingProg α β}
    (h : Runs sh p (fun c s' => Runs sh (f c) Q s') s) : Runs sh (p >>= f) Q s :=
  Prog.Wp.bind (fun _ => rfl) h

theorem mono {p : RingProg α β} {Q' : β → Traced α → Prop} (h : Runs sh p Q' s)
    (hQ : ∀ b s', Q' b s' → Q b s') : Runs sh p Q s :=
  Prog.Wp.mono h hQ

theorem bind_of {p : RingProg α γ} {f : γ → RingProg α β} {Q' : γ → Traced α → Prop}
    (h : Runs sh p Q' s) (hf : ∀ c s', Q' c s' → Runs sh (f c) Q s') : Runs sh (p >>= f) Q s :=
  bind (h.mono hf)

theorem act {c : RingOp α} {k : RingOp.Res c → RingProg α β}
    (hg : Guar sh s (traced c s).2) (h : Runs sh (k (traced c s).1) Q (traced c s).2) :
    Runs sh (Prog.act c k) Q s := by
  rintro s' rfl
  exact ⟨hg, h⟩

theorem loadReadable {k : Usize → RingProg α β} (hs : Sound sh s)
    (h : Runs sh (k s.mem.readablePos) Q s) : Runs sh (RingAct.loadReadable >>= k) Q s :=
  act hs.guar_refl h

theorem loadWriting {k : Usize → RingProg α β} (hs : Sound sh s)
    (h : Runs sh (k s.mem.writingPos) Q s) : Runs sh (RingAct.loadWriting >>= k) Q s :=
  act hs.guar_refl h

theorem lockBuffer {k : Bool → RingProg α β} (hs : Sound sh s)
    (h : Runs sh (k true) Q s) : Runs sh (RingAct.lockBuffer >>= k) Q s := by
  refine act hs.guar_refl ?_
  rw [show (traced RingOp.lockBuffer s).1 = true from hs.valid]
  exact h

theorem storeWriting {v : Usize} {k : Unit → RingProg α β} (hg : Guar sh s (s.storeWriting v))
    (h : Runs sh (k ()) Q (s.storeWriting v)) : Runs sh (RingAct.storeWriting v >>= k) Q s :=
  act hg h

theorem storeReadable {v : Usize} {k : Unit → RingProg α β}
    (hg : Guar sh s (s.storeReadable v)) (h : Runs sh (k ()) Q (s.storeReadable v)) :
    Runs sh (RingAct.storeReadable v >>= k) Q s :=
  act hg h

theorem addHole {k : Unit → RingProg α β} (hg : Guar sh s s.addHole)
    (h : Runs sh (k ()) Q s.addHole) : Runs sh (RingAct.addHole >>= k) Q s :=
  act hg h

theorem storeDefault {i : Nat} {k : Unit → RingProg α β} (hi : i < sh.itemsSize)
    (hg : Guar sh s (s.storeDefault (i * sh.stride)))
    (h : Runs sh (k ()) Q (s.storeDefault (i * sh.stride))) :
    Runs sh (RingAct.storeItem sh i default none >>= k) Q s := by
  rw [RingAct.storeItem, if_pos (sh.slot_in_buffer hi)]
  exact act hg h

theorem storeSample {i : Nat} {x : α} {ts : Usize} {k : Unit → RingProg α β}
    (hi : i < sh.itemsSize) (hg : Guar sh s (s.storeSample (i * sh.stride) x ts))
    (h : Runs sh (k ()) Q (s.storeSample (i * sh.stride) x ts)) :
    Runs sh (RingAct.storeItem sh i x (some ts) >>= k) Q s := by
  rw [RingAct.storeItem, if_pos (sh.slot_in_buffer hi)]
  exact act hg h

/-- A loop over the ring, with an invariant indexed by the number of slots
already walked; the `j`-th slot is that of time `a + j`. -/
theorem walk {f : γ → Nat → RingProg α γ} (Inv : Nat → γ → Traced α → Prop) {a len : Int}
    (h0 : 0 ≤ len) (hlt : len < 2 ^ 64)
    (hstep : ∀ j < visits sh.itemsSize len, ∀ acc s, Inv j acc s →
      Runs sh (f acc (slot sh.itemsSize (a + j))) (Inv (j + 1)) s)
    {acc : γ} (hinit : Inv 0 acc s) :
    Runs sh ((forInRing sh.itemsSize (BitVec.ofInt 64 a) (BitVec.ofInt 64 (a + len))).foldlM
      f acc) (Inv (visits sh.itemsSize len)) s := by
  rw [sh.forInRing_ofInt a h0 hlt]
  show Prog.Wp traced Eq (Guar sh) _ _ s
  refine (Prog.Wp.foldlM (fun (pre : List Nat) acc s => Inv pre.length acc s) (fun _ => rfl)
    (fun _ _ _ _ hinv heq => heq ▸ hinv) ?_ hinit).mono (fun acc s' hinv => by simpa using hinv)
  intro pre x post acc s hl hinv
  have hj : pre.length < visits sh.itemsSize len := by
    have hlen := congrArg List.length hl
    simp at hlen
    omega
  obtain rfl : x = slot sh.itemsSize (a + pre.length) := by
    have hget := congrArg (fun l => l[pre.length]?) hl
    simpa [hj, eq_comm] using hget
  simpa [Runs] using hstep pre.length hj acc s hinv

end Runs

namespace RBInput

variable {sh : RingShared} {inp : RBInput} {R : Int} {s : Traced α}

/-! ## Marking a hole -/

theorem foldl_clear_itemReady (l : List Nat) (inp : RBInput) (i : Nat) :
    (l.foldl (fun r i => r.setReady i false) inp).itemReady i =
      if i ∈ l then false else inp.itemReady i := by
  induction l generalizing inp with
  | nil => simp
  | cons x l ih =>
      rw [List.foldl_cons, ih]
      by_cases hi : i ∈ l
      · simp [hi]
      · by_cases hx : i = x
        · simp [hx, setReady]
        · simp [hi, hx, setReady]

theorem foldl_clear_holeFixWait (l : List Nat) (inp : RBInput) :
    (l.foldl (fun r i => r.setReady i false) inp).holeFixWait = inp.holeFixWait := by
  induction l generalizing inp with
  | nil => rfl
  | cons x l ih => rw [List.foldl_cons, ih]; rfl

/-- The private state after marking the hole `[base, base + g)`, if there is one. -/
def marked (sh : RingShared) (inp : RBInput) (base g : Int) : RBInput :=
  if 0 < g then
    (forInRing sh.itemsSize (BitVec.ofInt 64 base) (BitVec.ofInt 64 (base + g))).foldl
      (fun r i => r.setReady i false) inp
  else inp

theorem marked_holeFixWait (base g : Int) :
    (marked sh inp base g).holeFixWait = inp.holeFixWait := by
  unfold marked
  split
  · exact foldl_clear_holeFixWait _ _
  · rfl

theorem marked_itemReady {base g : Int} (hg : 0 < g) (hlt : g < 2 ^ 64) (i : Nat) :
    (marked sh inp base g).itemReady i =
      if ∃ j < visits sh.itemsSize g, slot sh.itemsSize (base + (j : Nat)) = i then false
      else inp.itemReady i := by
  rw [marked, if_pos hg, foldl_clear_itemReady, sh.forInRing_ofInt base (by omega) hlt]
  simp

theorem markHole_runs (ht : Tracks sh inp.itemReady (fun _ => False) R s) (ts : Usize) :
    Runs sh (markHole sh inp ts) (fun r s' => s' = s ∧
      r = (marked sh inp s.tl.base (s.tl.place ts - s.tl.base),
        decide (0 < s.tl.place ts - s.tl.base))) s := by
  have hg : wrapsub ts s.mem.writingPos = s.tl.place ts - s.tl.base := by
    rw [ht.writing, Timeline.place, Serial.place, wrapsub]
    omega
  have hts : BitVec.ofInt 64 (s.tl.base + (s.tl.place ts - s.tl.base)) = ts := by
    rw [show s.tl.base + (s.tl.place ts - s.tl.base) = s.tl.place ts by omega]
    exact Serial.ofInt_place _ _
  unfold markHole
  refine .loadWriting ht.sound ?_
  rw [hg]
  split
  · next hpos =>
      refine .loadWriting ht.sound (.ret ⟨rfl, ?_⟩)
      rw [marked, if_pos (by omega), hts, ht.writing, decide_eq_true (by omega)]
  · next hneg =>
      refine .ret ⟨rfl, ?_⟩
      rw [marked, if_neg (by omega), decide_eq_false (by omega)]

/-! ## Publishing the new end -/

/-- Marking and then publishing `T + n` opens the window for the items: the
times `[T, T + n)` are pending, everything else is tracked. -/
theorem openWindow {T : Int} {n : Nat} (ht : Tracks sh inp.itemReady (fun _ => False) R s)
    (hlag : T + n - R < 2 ^ 63)
    (hcover : 0 < T - s.tl.base → Covers sh.itemsSize (T - s.tl.base) (sh.itemsSize - n))
    (hnew : s.tl.base < T + n) :
    Tracks sh (marked sh inp s.tl.base (T - s.tl.base)).itemReady
      (fun t => T ≤ t ∧ t < T + n) R (s.storeWriting (BitVec.ofInt 64 (T + n))) := by
  have hN := sh.itemsSize_pos
  have hle := ht.le_base
  refine ht.storeWriting (by omega) hlag (fun _ h => h.elim) ?_ ?_
  · intro t hlo hhi
    by_cases hg : 0 < T - s.tl.base
    · rw [marked_itemReady hg (by omega), if_neg]
      rintro ⟨j, hj, hslot⟩
      have hjle := visits_le hN (show 0 ≤ T - s.tl.base by omega)
      have := slot_lap hN hslot (show t < s.tl.base + (j : Nat) by omega)
      omega
    · rw [marked, if_neg hg]
  · intro t hlo hbase hhi _ hpend
    have hg : 0 < T - s.tl.base := by omega
    rw [marked_itemReady hg (by omega), if_pos]
    exact (hcover hg).visited hN hbase (by omega) (by omega)

theorem publishWriting_runs {ready ready' : Nat → Bool} {pending pending' : Int → Prop} {U : Int}
    (ht : Tracks sh ready pending R s) (hfit : FitsIsize (U - s.tl.base))
    (hstay : U ≤ s.tl.base → Tracks sh ready' pending' R s)
    (hnext : s.tl.base < U → Tracks sh ready' pending' R (s.storeWriting (BitVec.ofInt 64 U))) :
    Runs sh (publishWriting (BitVec.ofInt 64 U)) (fun _ s' =>
      Tracks sh ready' pending' R s' ∧ s'.tl = { s.tl with base := max s.tl.base U }) s := by
  have hplace : s.tl.place (BitVec.ofInt 64 U) = U := Serial.place_ofInt (by decide) hfit
  unfold publishWriting
  refine .loadWriting ht.sound ?_
  rw [ht.writing, wrapsub_ofInt hfit]
  split
  · next hpos =>
      have ht' := hnext (by omega)
      have htl : (s.storeWriting (BitVec.ofInt 64 U)).tl =
          { s.tl with base := max s.tl.base U } := by
        rw [Traced.storeWriting, hplace, max_eq_right (by omega)]
      have hg : Guar sh s (s.storeWriting (BitVec.ofInt 64 U)) :=
        ⟨ht'.sound, by rw [htl]; exact le_max_left _ _,
          by rw [ht.readable_eq, ht'.readable_eq]⟩
      exact .act hg (.ret ⟨ht', htl⟩)
  · next hneg =>
      refine .ret ⟨hstay (by omega), ?_⟩
      rw [max_eq_left (by omega)]

/-! ## Writing the items -/

theorem guar_of_tracks {ready ready' : Nat → Bool} {pending pending' : Int → Prop} {R' : Int}
    {s' : Traced α} (ht : Tracks sh ready pending R s) (ht' : Tracks sh ready' pending' R' s')
    (hbase : s.tl.base ≤ s'.tl.base) (hR : R ≤ R') : Guar sh s s' :=
  ⟨ht'.sound, hbase, by rw [ht.readable_eq, ht'.readable_eq]; exact hR⟩

/-- The loop state after `j` items of `xs`, written from `T` on over `tl`. -/
structure Written (sh : RingShared) (inp : RBInput) (tl : Timeline α) (T : Int) (xs : List α)
    (R : Int) (j : Nat) (acc : RBInput × List α × Usize) (s : Traced α) : Prop where
  rest : acc.2.1 = xs.drop j
  ts : acc.2.2 = BitVec.ofInt 64 (T + j)
  wait : acc.1.holeFixWait = inp.holeFixWait
  tracks : Tracks sh acc.1.itemReady (fun t => T + j ≤ t ∧ t < T + xs.length) R s
  tl_eq : s.tl = tl.putAll T (xs.take j)

theorem writeItem_runs {tl : Timeline α} {T : Int} {xs : List α} {j : Nat}
    (hlo : tl.base - sh.itemsSize ≤ T) (hhi : T + xs.length ≤ tl.base) (hj : j < xs.length)
    {acc : RBInput × List α × Usize} (h : Written sh inp tl T xs R j acc s) :
    Runs sh (writeItem sh acc (slot sh.itemsSize (T + j)))
      (Written sh inp tl T xs R (j + 1)) s := by
  obtain ⟨acc1, rest, ts⟩ := acc
  obtain ⟨hrest, hts, hwait, htracks, htl⟩ := h
  simp only at hrest hts hwait htracks
  rw [List.drop_eq_getElem_cons hj] at hrest
  subst hrest hts
  have hbase : s.tl.base = tl.base := by rw [htl]; rfl
  have ht' : Tracks sh _ (fun t => T + (j + 1 : Nat) ≤ t ∧ t < T + xs.length) R
      (s.storeSample (slot sh.itemsSize (T + j) * sh.stride) xs[j] _) :=
    htracks.storeSample (by omega) (by omega) (fun t h => by omega)
  have hplace : s.tl.place (BitVec.ofInt 64 (T + j)) = T + j := by
    have := sh.itemsSize_le
    exact Serial.place_ofInt (by decide) ⟨by omega, by omega⟩
  have hlen : (xs.take j).length = j := by rw [List.length_take]; omega
  refine .storeSample (slot_lt sh.itemsSize_pos _)
    (guar_of_tracks htracks ht' (Int.le_refl _) (Int.le_refl _)) (.ret ?_)
  refine ⟨rfl, ?_, hwait, ht', ?_⟩
  · simpa [Int.add_assoc] using Serial.ofInt_add_ofNat (w := 64) (T + j) 1
  · have hput := Timeline.put_putAll tl T (xs.take j) xs[j]
    rw [hlen, List.take_append_getElem hj] at hput
    rw [Traced.storeSample, hplace, htl, hput]

theorem writeItems_runs {T : Int} {xs : List α} (hn : xs.length < sh.itemsSize)
    (ht : Tracks sh inp.itemReady (fun t => T ≤ t ∧ t < T + xs.length) R s)
    (hlo : s.tl.base - sh.itemsSize ≤ T) (hhi : T + xs.length ≤ s.tl.base) :
    Runs sh (writeItems sh inp (BitVec.ofInt 64 T) (BitVec.ofInt 64 (T + xs.length)) xs)
      (fun inp' s' => Tracks sh inp'.itemReady (fun _ => False) R s' ∧
        inp'.holeFixWait = inp.holeFixWait ∧ s'.tl = s.tl.putAll T xs) s := by
  have hle := sh.itemsSize_le
  have hvis : (visits sh.itemsSize xs.length : Int) = xs.length :=
    visits_of_le (by omega) (by omega)
  unfold writeItems
  refine .lockBuffer ht.sound ?_
  rw [if_pos rfl]
  refine .bind_of (.walk (Written sh inp s.tl T xs R) (by omega) (by omega) ?_ ?_) ?_
  · intro j hj acc s' h
    exact writeItem_runs hlo hhi (by omega) h
  · exact ⟨rfl, by simp, rfl, by simpa using ht, by simp⟩
  · intro acc s' h
    have hall : visits sh.itemsSize (xs.length : Int) = xs.length := by omega
    rw [hall] at h
    refine .ret ⟨h.tracks.mono_pending fun t hp => by omega, h.wait, ?_⟩
    rw [h.tl_eq, List.take_length]

/-! ## Closing holes -/

/-- Every slot of a walk over `[R, R + len)` with a clear bit holds no sample
of the window: a time of the window that shares the slot is readable later
than `R`, where clear bits mean no sample. -/
theorem free_of_clear {ready : Nat → Bool} {len t : Int}
    (ht : Tracks sh ready (fun _ => False) R s) (h0 : 0 ≤ len) (hlen : R + len ≤ s.tl.base)
    {j : Nat} (hj : j < visits sh.itemsSize len)
    (hclear : ready (slot sh.itemsSize (R + j)) = false)
    (hlo : s.tl.base - sh.itemsSize ≤ t) (hhi : t < s.tl.base)
    (hslot : slot sh.itemsSize t = slot sh.itemsSize (R + j)) : s.tl.sample t = none := by
  have hN := sh.itemsSize_pos
  have hjle := visits_le hN h0
  have hR : R ≤ t := by
    by_contra hlt
    have := slot_lap hN hslot.symm (show t < R + (j : Nat) by omega)
    omega
  have hiff := ht.ready_iff t hlo hhi hR (fun h => h)
  rw [hslot, hclear] at hiff
  cases hs : s.tl.sample t with
  | none => rfl
  | some x => simp [hs] at hiff

/-- The loop state after `j` slots of the walk over `[R, R + len)`. -/
structure Closed (sh : RingShared) (ready : Nat → Bool) (tl : Timeline α) (R : Int)
    (j : Nat) (s : Traced α) : Prop where
  tracks : Tracks sh ready (fun _ => False) R s
  tl_eq : s.tl = tl
  silent : ∀ k < j, ready (slot sh.itemsSize (R + (k : Nat))) = false →
    s.cell sh (R + (k : Nat)) = default

theorem closeHole_runs {tl : Timeline α} {len : Int} (h0 : 0 ≤ len) (hlen : R + len ≤ tl.base)
    {j : Nat} (hj : j < visits sh.itemsSize len) {hole : Bool}
    (h : Closed sh inp.itemReady tl R j s) :
    Runs sh (closeHole sh inp hole (slot sh.itemsSize (R + j)))
      (fun _ => Closed sh inp.itemReady tl R (j + 1)) s := by
  obtain ⟨htracks, htl, hsil⟩ := h
  unfold closeHole
  split
  · next hready =>
      refine .ret ⟨htracks, htl, fun k hk hclear => ?_⟩
      rcases Nat.lt_succ_iff_lt_or_eq.mp hk with hlt | rfl
      · exact hsil k hlt hclear
      · rw [hready] at hclear
        cases hclear
  · next hready =>
      have hclear := Bool.eq_false_iff.mpr hready
      have ht' := htracks.storeDefault fun t hlo hhi hslot =>
        free_of_clear htracks h0 (htl ▸ hlen) hj hclear hlo hhi hslot
      refine .storeDefault (slot_lt sh.itemsSize_pos _)
        (guar_of_tracks htracks ht' (Int.le_refl _) (Int.le_refl _)) (.ret ?_)
      refine ⟨ht', htl, fun k hk hclear => ?_⟩
      rw [Traced.cell_storeDefault]
      split
      · rfl
      · next hne =>
          rcases Nat.lt_succ_iff_lt_or_eq.mp hk with hlt | rfl
          · exact hsil k hlt hclear
          · exact absurd rfl hne

theorem defaultHoles_runs {len : Int} (ht : Tracks sh inp.itemReady (fun _ => False) R s)
    (h0 : 0 ≤ len) (hlen : R + len ≤ s.tl.base) :
    Runs sh (defaultHoles sh inp (BitVec.ofInt 64 (R + len)))
      (fun _ => Closed sh inp.itemReady s.tl R (visits sh.itemsSize len)) s := by
  have hlag := ht.lag
  unfold defaultHoles
  refine .lockBuffer ht.sound ?_
  rw [if_pos rfl]
  refine .loadReadable ht.sound ?_
  rw [ht.reading]
  refine .walk (fun j (_ : Bool) s' => Closed sh inp.itemReady s.tl R j s') h0 (by omega) ?_ ?_
  · intro j hj hole s' h
    exact closeHole_runs h0 hlen hj h
  · exact ⟨ht, rfl, fun k hk => absurd hk (Nat.not_lt_zero k)⟩

theorem countHole_runs {tl : Timeline α} {ready : Nat → Bool} {j : Nat} {hole : Bool}
    (h : Closed sh ready tl R j s) :
    Runs sh (countHole hole) (fun _ => Closed sh ready tl R j) s := by
  cases hole with
  | false => exact .ret h
  | true =>
      have ht' := h.tracks.addHole
      exact .act (guar_of_tracks h.tracks ht' (Int.le_refl _) (Int.le_refl _))
        (.ret ⟨ht', h.tl_eq, h.silent⟩)

/-- Publishing a readable position whose newly readable times are silent or
written. -/
theorem storeReadable_runs {ready : Nat → Bool} {pending : Int → Prop} {R' : Int}
    (ht : Tracks sh ready pending R s) (hR : R ≤ R') (hbase : R' ≤ s.tl.base)
    (hsil : ∀ t, s.tl.base - sh.itemsSize ≤ t → R ≤ t → t < R' → s.tl.sample t = none →
      s.cell sh t = default) :
    Runs sh (RingAct.storeReadable (BitVec.ofInt 64 R')) (fun _ s' =>
      Tracks sh ready pending R' s' ∧ s'.tl = s.tl) s := by
  have ht' := ht.storeReadable hR hbase hsil
  exact .act (guar_of_tracks ht ht' (Int.le_refl _) hR) (.ret ⟨ht', rfl⟩)

/-- Closing up to `C`: holes in the window become silent and `C` readable. -/
theorem closeHoles_runs {C : Int} (ht : Tracks sh inp.itemReady (fun _ => False) R s)
    (hC : C ≤ s.tl.base) (hfit : -2 ^ 63 ≤ C - R)
    (hcover : 0 < C - R → Covers sh.itemsSize (C - R) (sh.itemsSize - (s.tl.base - C))) :
    Runs sh (closeHoles sh inp (BitVec.ofInt 64 C)) (fun _ s' =>
      Tracks sh inp.itemReady (fun _ => False) (max R C) s' ∧ s'.tl = s.tl) s := by
  have hlag := ht.lag
  unfold closeHoles
  refine .loadReadable ht.sound ?_
  rw [ht.reading, wrapsub_ofInt ⟨hfit, by omega⟩]
  split
  · next hpos =>
      have hwalk := defaultHoles_runs ht (Int.le_of_lt hpos) (by omega)
      rw [show R + (C - R) = C by omega] at hwalk
      refine .bind_of hwalk fun hole s1 h1 => .bind_of (countHole_runs h1) fun _ s2 h2 => ?_
      rw [max_eq_right (by omega)]
      have htl := h2.tl_eq
      refine (storeReadable_runs h2.tracks (by omega) (htl ▸ hC) ?_).mono fun _ s3 h3 =>
        ⟨h3.1, h3.2.trans htl⟩
      intro t hlo hR hhi hs
      rw [htl] at hlo
      obtain ⟨j, hj, hslot⟩ := (hcover hpos).visited sh.itemsSize_pos hR
        (show t < R + (C - R) by omega) (by omega)
      have hclear : inp.itemReady (slot sh.itemsSize (R + (j : Nat))) = false := by
        rw [hslot]
        have hiff := h2.tracks.ready_iff t (htl ▸ hlo) (by rw [htl]; omega) hR (fun h => h)
        rw [hs] at hiff
        simpa using hiff
      have hcell := h2.silent j hj hclear
      rwa [Traced.cell, hslot] at hcell
  · next hneg =>
      rw [max_eq_left (by omega)]
      exact .ret ⟨ht, rfl⟩

/-! ## The scan for fixed holes -/

/-- The scan stops at the first clear bit; everything before it is set. -/
theorem foldl_countReady (inp : RBInput) (l : List Nat) (p : Usize) :
    ∃ c ≤ l.length, (l.foldl (countReady inp) (true, p)).2 = p + BitVec.ofNat 64 c ∧
      ∀ j < c, ∀ i, l[j]? = some i → inp.itemReady i = true := by
  have hstop : ∀ (l : List Nat) (p : Usize), (l.foldl (countReady inp) (false, p)).2 = p := by
    intro l
    induction l with
    | nil => exact fun _ => rfl
    | cons x l ih => exact fun p => ih p
  induction l generalizing p with
  | nil => exact ⟨0, Nat.le_refl _, by simp, fun j hj => absurd hj (Nat.not_lt_zero j)⟩
  | cons x l ih =>
      by_cases hx : inp.itemReady x = true
      · obtain ⟨c, hc, heq, hall⟩ := ih (p + 1)
        refine ⟨c + 1, Nat.succ_le_succ hc, ?_, ?_⟩
        · rw [List.foldl_cons]
          simp only [countReady, hx, if_true, Bool.not_true, Bool.false_eq_true, if_false]
          rw [heq, BitVec.add_assoc, BitVec.add_comm 1, BitVec.ofNat_add]
          rfl
        · intro j hj i hi
          cases j with
          | zero =>
              obtain rfl : x = i := by simpa using hi
              exact hx
          | succ j => exact hall j (by omega) i (by simpa using hi)
      · refine ⟨0, Nat.zero_le _, ?_, fun j hj => absurd hj (Nat.not_lt_zero j)⟩
        rw [List.foldl_cons]
        simp only [countReady, hx]
        simpa using hstop l p

/-- The scan moves the readable position over written times only. -/
theorem checkHoles_runs {C : Int} (ht : Tracks sh inp.itemReady (fun _ => False) R s)
    (hC : C ≤ s.tl.base) (hfit : -2 ^ 63 ≤ C - R) :
    Runs sh (checkHoles sh inp (BitVec.ofInt 64 C)) (fun _ s' =>
      ∃ R' ≥ R, Tracks sh inp.itemReady (fun _ => False) R' s' ∧ s'.tl = s.tl) s := by
  have hlag := ht.lag
  have hN := sh.itemsSize_pos
  unfold checkHoles
  refine .loadReadable ht.sound ?_
  rw [ht.reading, wrapsub_ofInt ⟨hfit, by omega⟩]
  split
  · next hpos =>
      refine .loadReadable ht.sound (.loadReadable ht.sound ?_)
      have hwalk := sh.forInRing_ofInt R (Int.le_of_lt hpos) (by omega)
      rw [show R + (C - R) = C by omega] at hwalk
      have hvis := visits_le hN (Int.le_of_lt hpos)
      obtain ⟨c, hc, heq, hall⟩ := foldl_countReady inp
        ((List.range (visits sh.itemsSize (C - R))).map
          fun j => slot sh.itemsSize (R + (j : Nat))) (BitVec.ofInt 64 R)
      rw [List.length_map, List.length_range] at hc
      rw [ht.reading, hwalk, heq, Serial.ofInt_add_ofNat]
      refine (storeReadable_runs ht (by omega) (by omega) ?_).mono fun _ s' h =>
        ⟨R + c, by omega, h.1, h.2⟩
      intro t hlo hR hhi hs
      have hready : inp.itemReady (slot sh.itemsSize t) = true := by
        refine hall (t - R).toNat (by omega) _ ?_
        have hidx : R + ((t - R).toNat : Int) = t := by omega
        rw [List.getElem?_map, List.getElem?_range (by omega)]
        exact congrArg (fun u => some (slot sh.itemsSize u)) hidx
      have hiff := ht.ready_iff t hlo (by omega) hR (fun h => h)
      rw [hs, hready] at hiff
      simp at hiff
  · next hneg => exact .ret ⟨R, Int.le_refl _, ht, rfl⟩

theorem closeItemsUntilInternal_runs {C E : Int}
    (ht : Tracks sh inp.itemReady (fun _ => False) R s) (hC : C ≤ s.tl.base)
    (hE : E ≤ s.tl.base) (hfit : -2 ^ 63 ≤ C - R) (hfitE : -2 ^ 63 ≤ E - max R C)
    (hcover : 0 < C - R → Covers sh.itemsSize (C - R) (sh.itemsSize - (s.tl.base - C))) :
    Runs sh (closeItemsUntilInternal sh inp (BitVec.ofInt 64 C) (BitVec.ofInt 64 E)) (fun _ s' =>
      ∃ R' ≥ max R C, Tracks sh inp.itemReady (fun _ => False) R' s' ∧ s'.tl = s.tl) s := by
  unfold closeItemsUntilInternal
  refine .bind_of (closeHoles_runs ht hC hfit hcover) fun _ s1 ⟨ht1, htl1⟩ => ?_
  refine (checkHoles_runs ht1 (by rw [htl1]; exact hE) hfitE).mono fun _ s2 h2 => ?_
  obtain ⟨R', hR', ht2, htl2⟩ := h2
  exact ⟨R', hR', ht2, htl2.trans htl1⟩

/-! ## Whole calls -/

/-- The state between two calls of the writer. -/
structure Steady (sh : RingShared) (inp : RBInput) (R : Int) (s : Traced α) : Prop where
  tracks : Tracks sh inp.itemReady (fun _ => False) R s
  wait : s.tl.base - R ≤ inp.holeFixWait.toNat
  wait_le : inp.holeFixWait.toNat ≤ 2 ^ 62

theorem publishReadable_clean (ht : Tracks sh inp.itemReady (fun _ => False) R s)
    (hfull : ∀ t, R ≤ t → t < s.tl.base → (s.tl.sample t).isSome) :
    Runs sh (publishReadable sh inp false) (fun _ s' =>
      Tracks sh inp.itemReady (fun _ => False) s.tl.base s' ∧ s'.tl = s.tl) s := by
  unfold publishReadable
  refine .loadWriting ht.sound ?_
  rw [ht.writing]
  refine storeReadable_runs ht ht.le_base (Int.le_refl _) fun t _ hR hhi hs => ?_
  have hsome := hfull t hR hhi
  rw [hs] at hsome
  cases hsome

theorem sub_holeFixWait (W : Int) (h : Usize) :
    BitVec.ofInt 64 W - h = BitVec.ofInt 64 (W - h.toNat) := by
  rw [← Serial.ofInt_sub, BitVec.ofInt_natCast, BitVec.ofNat_toNat, BitVec.setWidth_eq]

theorem publishReadable_hole (ht : Tracks sh inp.itemReady (fun _ => False) R s)
    (hwait : inp.holeFixWait.toNat ≤ 2 ^ 62)
    (hcover : 0 < s.tl.base - inp.holeFixWait.toNat - R →
      Covers sh.itemsSize (s.tl.base - inp.holeFixWait.toNat - R)
        (sh.itemsSize - inp.holeFixWait.toNat)) :
    Runs sh (publishReadable sh inp true) (fun _ s' =>
      ∃ R' ≥ max R (s.tl.base - inp.holeFixWait.toNat),
        Tracks sh inp.itemReady (fun _ => False) R' s' ∧ s'.tl = s.tl) s := by
  have hle := ht.le_base
  unfold publishReadable
  refine .loadWriting ht.sound (.loadWriting ht.sound ?_)
  rw [ht.writing, sub_holeFixWait]
  refine closeItemsUntilInternal_runs ht (by omega) (Int.le_refl _) (by omega) (by omega)
    fun hpos => ?_
  rw [show s.tl.base - (s.tl.base - (inp.holeFixWait.toNat : Int)) = inp.holeFixWait.toNat by omega]
  exact hcover hpos

theorem commitReadablePos_runs {ready : Nat → Bool} {pending : Int → Prop}
    (ht : Tracks sh ready pending R s) :
    Runs sh (commitReadablePos sh) (fun _ s' =>
      Tracks sh ready pending R s' ∧ s'.tl = s.tl) s := by
  unfold commitReadablePos
  split
  · have ht' := ht.report s.mem.readablePos
    exact .loadReadable ht.sound (.act (guar_of_tracks ht ht' (Int.le_refl _) (Int.le_refl _))
      (.ret ⟨ht', rfl⟩))
  · exact .ret ⟨ht, rfl⟩

/-- The conditions of `write_from_at` on the memory it meets: the length it
asserts, a packet not more than a lap late, positions `isize` can tell apart,
and walks that cover. `g` is how far the packet is ahead of the writing
position, `d` how far that is ahead of the readable position. -/
structure FitsWrite (sh : RingShared) (inp : RBInput) (m : RingMem α) (ts : Usize)
    (n : Nat) : Prop where
  short : n < sh.itemsSize
  notLate : -sh.itemsSize ≤ wrapsub ts m.writingPos
  near : wrapsub ts m.writingPos + n + wrapsub m.writingPos m.readablePos < 2 ^ 63
  marks : 0 < wrapsub ts m.writingPos →
    Covers sh.itemsSize (wrapsub ts m.writingPos) (sh.itemsSize - n)
  closes : 0 < wrapsub ts m.writingPos ∨ m.readablePos ≠ m.writingPos →
    0 < max 0 (wrapsub ts m.writingPos + n) + wrapsub m.writingPos m.readablePos
      - inp.holeFixWait.toNat →
    Covers sh.itemsSize (max 0 (wrapsub ts m.writingPos + n)
      + wrapsub m.writingPos m.readablePos - inp.holeFixWait.toNat)
      (sh.itemsSize - inp.holeFixWait.toNat)

instance (sh : RingShared) (inp : RBInput) (m : RingMem α) (ts : Usize) (n : Nat) :
    Decidable (FitsWrite sh inp m ts n) :=
  decidable_of_iff (_ ∧ _ ∧ _ ∧ _ ∧ _)
    ⟨fun ⟨h1, h2, h3, h4, h5⟩ => ⟨h1, h2, h3, h4, h5⟩,
      fun ⟨h1, h2, h3, h4, h5⟩ => ⟨h1, h2, h3, h4, h5⟩⟩

/-- Likewise for `close_items_until`. -/
structure FitsClose (sh : RingShared) (m : RingMem α) (untilPos : Usize) : Prop where
  closes : 0 < min (wrapsub untilPos m.writingPos) 0 + wrapsub m.writingPos m.readablePos →
    Covers sh.itemsSize (min (wrapsub untilPos m.writingPos) 0
      + wrapsub m.writingPos m.readablePos)
      (sh.itemsSize + min (wrapsub untilPos m.writingPos) 0)
  fills : 0 < wrapsub untilPos m.writingPos →
    Covers sh.itemsSize (wrapsub untilPos m.writingPos) sh.itemsSize

instance (sh : RingShared) (m : RingMem α) (untilPos : Usize) :
    Decidable (FitsClose sh m untilPos) :=
  decidable_of_iff (_ ∧ _) ⟨fun ⟨h1, h2⟩ => ⟨h1, h2⟩, fun ⟨h1, h2⟩ => ⟨h1, h2⟩⟩

theorem readable_ne_writing (ht : Tracks sh inp.itemReady (fun _ => False) R s) :
    (s.mem.readablePos != s.mem.writingPos) = decide (R ≠ s.tl.base) := by
  have hd := ht.wrapsub_eq
  by_cases heq : R = s.tl.base
  · simp [ht.reading, ht.writing, heq]
  · have hne : s.mem.readablePos ≠ s.mem.writingPos := fun hcon => by
      rw [hcon, wrapsub_self] at hd
      omega
    simp [hne, heq]

/-- `write_from_at` on a memory it fits is the timeline's write, and its last
publication is at most `hole_fix_wait` behind the writing position. -/
theorem writeFromAt_runs (h : Steady sh inp R s) {ts : Usize} {xs : List α}
    (hfit : FitsWrite sh inp s.mem ts xs.length) :
    Runs sh (writeFromAt sh inp ts xs) (fun r s' => ∃ R', R ≤ R' ∧ Steady sh r.1 R' s' ∧
      r.1.holeFixWait = inp.holeFixWait ∧ r.2 = BitVec.ofInt 64 R' ∧
      s'.tl = s.tl.write ts xs) s := by
  obtain ⟨ht, hwait, hmax⟩ := h
  obtain ⟨hn, hlate, hnear, hmarks, hcloses⟩ := hfit
  have hle := ht.le_base
  have hN := sh.itemsSize_le
  have hg : wrapsub ts s.mem.writingPos = s.tl.place ts - s.tl.base := by
    rw [ht.writing, Timeline.place, Serial.place, wrapsub]
    omega
  obtain ⟨T, hT⟩ : ∃ T, T = s.tl.place ts := ⟨_, rfl⟩
  have hts : ts = BitVec.ofInt 64 T := by rw [hT]; exact (Serial.ofInt_place _ _).symm
  rw [hg, ← hT] at hlate hmarks
  rw [hg, ht.wrapsub_eq, ← hT] at hnear hcloses
  unfold writeFromAt
  rw [Prog.bind_eq, Prog.assert_bind (by exact hn)]
  refine .bind_of (markHole_runs ht ts) ?_
  rintro _ s1 ⟨rfl, rfl⟩
  rw [← hT]
  refine .loadReadable ht.sound (.loadWriting ht.sound ?_)
  simp only [readable_ne_writing ht]
  rw [hts, Serial.ofInt_add_ofNat]
  -- publishing opens the window, or leaves it as it is when nothing is new
  have hopen : Runs sh (publishWriting (BitVec.ofInt 64 (T + xs.length))) (fun _ s' =>
      Tracks sh (marked sh inp s1.tl.base (T - s1.tl.base)).itemReady
        (fun t => T ≤ t ∧ t < T + xs.length) R s' ∧
      s'.tl = { s1.tl with base := max s1.tl.base (T + xs.length) }) s1 := by
    refine publishWriting_runs ht ⟨by omega, by omega⟩ ?_ (openWindow ht (by omega) hmarks)
    intro hstay
    rw [marked, if_neg (by omega)]
    exact ht.mono_pending fun _ hp => hp.elim
  refine .bind_of hopen ?_
  rintro _ s2 ⟨ht2, htl2⟩
  have hbase2 : s2.tl.base = max s1.tl.base (T + xs.length) := by rw [htl2]
  refine .bind_of (writeItems_runs hn ht2 (by omega) (by omega)) ?_
  rintro inp3 s3 ⟨ht3, hw3, htl3⟩
  have hbase3 : s3.tl.base = max s1.tl.base (T + xs.length) := by rw [htl3]; exact hbase2
  rw [marked_holeFixWait] at hw3
  have htl : s3.tl = s1.tl.write ts xs := by
    rw [htl3, htl2, Timeline.write, ← hT]
    rfl
  -- publishing the readable position, with or without a hole
  suffices hpub : Runs sh (publishReadable sh inp3
      (decide (0 < T - s1.tl.base) || decide (R ≠ s1.tl.base))) (fun _ s' =>
      ∃ R', R ≤ R' ∧ s3.tl.base - R' ≤ inp.holeFixWait.toNat ∧
        Tracks sh inp3.itemReady (fun _ => False) R' s' ∧ s'.tl = s3.tl) s3 by
    refine .bind_of hpub ?_
    rintro _ s4 ⟨R', hR', hd', ht4, htl4⟩
    refine .bind_of (commitReadablePos_runs ht4) ?_
    rintro _ s5 ⟨ht5, htl5⟩
    refine .loadReadable ht5.sound (.ret ⟨R', hR', ⟨ht5, ?_, ?_⟩, hw3, ht5.reading, ?_⟩)
    · rw [htl5, htl4, hw3]
      exact hd'
    · rw [hw3]
      exact hmax
    · rw [htl5, htl4, htl, ← hts]
  by_cases hhole : 0 < T - s1.tl.base ∨ R ≠ s1.tl.base
  · rw [show (decide (0 < T - s1.tl.base) || decide (R ≠ s1.tl.base)) = true by simpa using hhole]
    refine (publishReadable_hole ht3 (by rw [hw3]; exact hmax) fun hpos => ?_).mono ?_
    · rw [hw3, hbase3] at hpos ⊢
      have hL : max s1.tl.base (T + xs.length) - inp.holeFixWait.toNat - R =
          max 0 (T - s1.tl.base + xs.length) + (s1.tl.base - R) - inp.holeFixWait.toNat := by
        omega
      rw [hL] at hpos ⊢
      refine hcloses (hhole.imp_right fun hne hcon => hne ?_) hpos
      have := ht.wrapsub_eq
      rw [hcon, wrapsub_self] at this
      omega
    · rintro _ s4 ⟨R', hR', ht4, htl4⟩
      rw [hw3] at hR'
      exact ⟨R', by omega, by omega, ht4, htl4⟩
  · rw [show (decide (0 < T - s1.tl.base) || decide (R ≠ s1.tl.base)) = false by
      simpa using hhole]
    refine (publishReadable_clean ht3 fun t hR hhi => ?_).mono ?_
    · rw [htl3, Timeline.putAll_sample_of_mem (by omega) (by omega), List.getElem?_eq_getElem
        (by omega)]
      rfl
    · rintro _ s4 ⟨ht4, htl4⟩
      exact ⟨s3.tl.base, by omega, by omega, ht4, htl4⟩

/-! ## Closing beyond the writing position -/

/-- The loop state of the fill after `j` slots of the walk from `W` on. -/
structure Filled (sh : RingShared) (ready : Nat → Bool) (pending : Int → Prop)
    (tl : Timeline α) (R W : Int) (j : Nat) (s : Traced α) : Prop where
  tracks : Tracks sh ready pending R s
  tl_eq : s.tl = tl
  silent : ∀ k < j, s.cell sh (W + (k : Nat)) = default

theorem fillSlots_runs {ready : Nat → Bool} {pending : Int → Prop} {W len : Int}
    (ht : Tracks sh ready pending R s) (h0 : 0 ≤ len) (hlt : len < 2 ^ 64)
    (hend : s.tl.base = W + len) (hnew : ∀ t, W ≤ t → s.tl.sample t = none) :
    Runs sh (fillSlots sh (BitVec.ofInt 64 W) (BitVec.ofInt 64 (W + len)))
      (fun _ => Filled sh ready pending s.tl R W (visits sh.itemsSize len)) s := by
  have hN := sh.itemsSize_pos
  unfold fillSlots
  refine .lockBuffer ht.sound ?_
  rw [if_pos rfl]
  refine .walk (fun j (_ : Unit) s' => Filled sh ready pending s.tl R W j s') h0 hlt ?_ ?_
  · rintro j hj _ s' ⟨ht', htl, hsil⟩
    have hjle := visits_le hN h0
    -- a time of the window in this slot is not older than the slot's own time
    have hfree : Tracks sh ready pending R
        (s'.storeDefault (slot sh.itemsSize (W + j) * sh.stride)) := by
      refine ht'.storeDefault fun t hlo _ hslot => ?_
      rw [htl] at hlo ⊢
      refine hnew t ?_
      by_contra hold
      have := slot_lap hN hslot.symm (show t < W + (j : Nat) by omega)
      omega
    rw [fillSlot, RingAct.storeItem, if_pos (sh.slot_in_buffer (slot_lt hN _))]
    refine .act (guar_of_tracks ht' hfree (Int.le_refl _) (Int.le_refl _))
      (.ret ⟨hfree, htl, fun k hk => ?_⟩)
    show (s'.storeDefault (slot sh.itemsSize (W + j) * sh.stride)).cell sh (W + k) = default
    rw [Traced.cell_storeDefault]
    split
    · rfl
    · next hne =>
        rcases Nat.lt_succ_iff_lt_or_eq.mp hk with hlt | rfl
        · exact hsil k hlt
        · exact absurd rfl hne
  · exact ⟨ht, rfl, fun k hk => absurd hk (Nat.not_lt_zero k)⟩

theorem fillUntil_runs {T : Int} (ht : Tracks sh inp.itemReady (fun _ => False) s.tl.base s)
    (hT : s.tl.base < T) (hfit : T - s.tl.base < 2 ^ 63)
    (hcover : Covers sh.itemsSize (T - s.tl.base) sh.itemsSize) :
    Runs sh (fillUntil sh (BitVec.ofInt 64 s.tl.base) (BitVec.ofInt 64 T)) (fun _ s' =>
      Tracks sh inp.itemReady (fun _ => False) T s' ∧ s'.tl = { s.tl with base := T }) s := by
  have hne : (BitVec.ofInt 64 T != BitVec.ofInt 64 s.tl.base) = true := by
    rw [bne_iff_ne]
    intro hcon
    have hsub : wrapsub (BitVec.ofInt 64 T) (BitVec.ofInt 64 s.tl.base) = T - s.tl.base :=
      wrapsub_ofInt ⟨by omega, hfit⟩
    rw [hcon, wrapsub_self] at hsub
    omega
  have hplace : s.tl.place (BitVec.ofInt 64 T) = T :=
    Serial.place_ofInt (by decide) ⟨by omega, hfit⟩
  have ht1 : Tracks sh inp.itemReady (fun t => s.tl.base ≤ t) s.tl.base
      (s.storeWriting (BitVec.ofInt 64 T)) :=
    ht.storeWriting (by omega) hfit (fun _ hp => hp.elim) (fun _ _ _ => rfl)
      fun t _ hge _ _ hpend => absurd hge hpend
  have hbase1 : (s.storeWriting (BitVec.ofInt 64 T)).tl.base = T := hplace
  unfold fillUntil
  rw [if_pos hne]
  refine .storeWriting (guar_of_tracks ht ht1 (by rw [hbase1]; omega) (Int.le_refl _)) ?_
  have hfill := fillSlots_runs ht1 (show 0 ≤ T - s.tl.base by omega) (by omega)
    (show _ = s.tl.base + (T - s.tl.base) by rw [hbase1]; omega) ht.future
  rw [show s.tl.base + (T - s.tl.base) = T by omega] at hfill
  refine .bind_of hfill ?_
  rintro _ s2 ⟨ht2, htl2, hsil⟩
  have hbase2 : s2.tl.base = T := by rw [htl2]; exact hbase1
  refine (storeReadable_runs ht2 (Int.le_of_lt hT) (Int.le_of_eq hbase2.symm) ?_).mono ?_
  · intro t hlo hR hhi _
    obtain ⟨j, hj, hslot⟩ := hcover.visited sh.itemsSize_pos hR
      (show t < s.tl.base + (T - s.tl.base) by omega) (by omega)
    have hcell := hsil j hj
    rwa [Traced.cell, hslot] at hcell
  · rintro _ s3 ⟨ht3, htl3⟩
    refine ⟨?_, ?_⟩
    · exact { ht3 with ready_iff := fun t _ hhi hR => by rw [htl3] at hhi; omega }
    · rw [htl3, htl2, Traced.storeWriting, hplace]

/-- `close_items_until` on a memory it fits is the timeline's close. -/
theorem closeItemsUntil_runs (h : Steady sh inp R s) {untilPos : Usize}
    (hfit : FitsClose sh s.mem untilPos) :
    Runs sh (closeItemsUntil sh inp untilPos) (fun _ s' => ∃ R', R ≤ R' ∧ Steady sh inp R' s' ∧
      s'.tl = s.tl.close untilPos) s := by
  obtain ⟨ht, hwait, hmax⟩ := h
  obtain ⟨hcloses, hfills⟩ := hfit
  have hle := ht.le_base
  have hg : wrapsub untilPos s.mem.writingPos = s.tl.place untilPos - s.tl.base := by
    rw [ht.writing, Timeline.place, Serial.place, wrapsub]
    omega
  have hrange : FitsIsize (wrapsub untilPos s.mem.writingPos) := fitsIsize_wrapsub _ _
  obtain ⟨T, hT⟩ : ∃ T, T = s.tl.place untilPos := ⟨_, rfl⟩
  have hu : untilPos = BitVec.ofInt 64 T := by rw [hT]; exact (Serial.ofInt_place _ _).symm
  rw [hg, ← hT] at hrange hfills
  rw [hg, ht.wrapsub_eq, ← hT] at hcloses
  obtain ⟨hlow, hhigh⟩ := hrange
  unfold closeItemsUntil
  refine .loadWriting ht.sound ?_
  have hstart : (if wrapsub untilPos s.mem.writingPos > 0 then s.mem.writingPos else untilPos) =
      BitVec.ofInt 64 (min s.tl.base T) := by
    rw [hg, ← hT]
    split
    · rw [min_eq_left (by omega)]
      exact ht.writing
    · rw [min_eq_right (by omega)]
      exact hu
  simp only [hstart]
  refine .bind_of (closeItemsUntilInternal_runs ht (C := min s.tl.base T) (E := min s.tl.base T)
    (by omega) (by omega) (by omega) (by omega) fun hpos => ?_) ?_
  · rw [show min s.tl.base T - R = min (T - s.tl.base) 0 + (s.tl.base - R) by omega] at hpos ⊢
    rw [show (sh.itemsSize : Int) - (s.tl.base - min s.tl.base T) =
      sh.itemsSize + min (T - s.tl.base) 0 by omega]
    exact hcloses hpos
  rintro _ s1 ⟨R1, hR1, ht1, htl1⟩
  have hbase1 : s1.tl.base = s.tl.base := by rw [htl1]
  have hle1 := ht1.le_base
  suffices hfill : Runs sh (fillUntil sh (BitVec.ofInt 64 (min s.tl.base T)) untilPos)
      (fun _ s' => ∃ R', R ≤ R' ∧ Steady sh inp R' s' ∧ s'.tl = s.tl.close untilPos) s1 by
    refine .bind_of hfill ?_
    rintro _ s2 ⟨R', hR', ⟨ht2, hwait2, _⟩, htl2⟩
    refine (commitReadablePos_runs ht2).mono ?_
    rintro _ s3 ⟨ht3, htl3⟩
    exact ⟨R', hR', ⟨ht3, by rw [htl3]; exact hwait2, hmax⟩, by rw [htl3, htl2]⟩
  by_cases hpos : 0 < T - s.tl.base
  · obtain rfl : R1 = s1.tl.base := by omega
    rw [min_eq_left (by omega), hu, ← hbase1]
    refine (fillUntil_runs ht1 (by omega) (by omega) (by rw [hbase1]; exact hfills hpos)).mono ?_
    rintro _ s2 ⟨ht2, htl2⟩
    refine ⟨T, by omega, ⟨ht2, ?_, hmax⟩, ?_⟩
    · rw [htl2]
      simp
    · rw [htl2, htl1, Timeline.close, ← hu, ← hT, max_eq_right (by omega)]
  · rw [min_eq_right (by omega), ← hu, fillUntil, if_neg (by simp)]
    refine .ret ⟨R1, by omega, ⟨ht1, by omega, hmax⟩, ?_⟩
    rw [htl1, Timeline.close, ← hT, max_eq_left (by omega)]

end RBInput

end Inferno
