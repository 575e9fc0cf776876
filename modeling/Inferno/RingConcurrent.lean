import Inferno.RingLaw

/-!
# One writer, one reader

A `RingSystem` is the ring with its writer: between calls, or at some action
of a call (`Writer`). The writer's steps are the environment of the reader,
whose program is `read_at`; every atomic load and store of either is one step,
and any order of steps is a run. `readAt_history` says that whatever the
order, a useful item has the value its time had in one of the states passed.

The writer is correct by its specifications run alone: nobody else stores.
What the reader needs of it is its guarantee on single actions (`Guar`), in
particular that the writing position moves before a slot is overwritten.
-/

namespace Inferno

open Serial

variable {α : Type} [Inhabited α]

/-! ## The system -/

inductive Writer (α : Type) where
  | idle (inp : RBInput)
  | busy (p : RingProg α RBInput)

structure RingSystem (α : Type) where
  ring : Traced α
  writer : Writer α

/-- A step of the writer: it begins a call in the window, performs one action
of it, or returns. -/
inductive WriterStep (sh : RingShared) : RingSystem α → RingSystem α → Prop
  | call {inp : RBInput} {c : RingCall α} {ring : Traced α} :
      c.InWindow sh (inp, ring.mem) →
      WriterStep sh ⟨ring, .idle inp⟩ ⟨ring, .busy (c.prog sh inp)⟩
  | act {c : RingOp α} {k : RingOp.Res c → RingProg α RBInput} {ring : Traced α} :
      WriterStep sh ⟨ring, .busy (.act c k)⟩ ⟨(traced c ring).2, .busy (k (traced c ring).1)⟩
  | done {inp : RBInput} {ring : Traced α} :
      WriterStep sh ⟨ring, .busy (.ret inp)⟩ ⟨ring, .idle inp⟩

/-- What a reader's action does to the system. -/
def readerMem : Handler (RingIface α) (RingSystem α) :=
  fun c s => ((traced c s.ring).1, { s with ring := (traced c s.ring).2 })

/-- A fresh owned ring with its writer. -/
def RingSystem.fresh (startTime holeFixWait : Usize) : RingSystem α where
  ring := ⟨ownedMem startTime, .fresh startTime⟩
  writer := .idle (freshInput holeFixWait)

/-! ## The writer's invariant and guarantee -/

/-- Between calls the ring is steady; inside one, the rest of the call runs to
a steady ring. -/
def Writer.Inv (sh : RingShared) (ring : Traced α) : Writer α → Prop
  | .idle inp => (∃ R, RBInput.Steady sh inp R ring) ∧ inp.holeFixWait.toNat ≤ sh.itemsSize
  | .busy p => Runs sh p (fun inp s => (∃ R, RBInput.Steady sh inp R s) ∧
      inp.holeFixWait.toNat ≤ sh.itemsSize) ring

structure RingSystem.Inv (sh : RingShared) (s : RingSystem α) : Prop where
  sound : Sound sh s.ring
  writer : s.writer.Inv sh s.ring

/-- The order the writer keeps between the rings of a run. -/
def Later (sh : RingShared) (x y : Traced α) : Prop := Sound sh x → Guar sh x y

theorem Guar.trans {sh : RingShared} {x y z : Traced α} (h₁ : Guar sh x y) (h₂ : Guar sh y z) :
    Guar sh x z :=
  ⟨h₂.sound, Int.le_trans h₁.base_le h₂.base_le, Int.le_trans h₁.readable_le h₂.readable_le⟩

theorem Later.refl {sh : RingShared} (x : Traced α) : Later sh x x :=
  Sound.guar_refl

theorem Later.trans {sh : RingShared} {x y z : Traced α} (h₁ : Later sh x y)
    (h₂ : Later sh y z) : Later sh x z :=
  fun hx => (h₁ hx).trans (h₂ (h₁ hx).sound)

/-- Every step of the writer keeps the invariant and is in its guarantee. -/
theorem WriterStep.keeps {sh : RingShared} {s s' : RingSystem α} (h : WriterStep sh s s')
    (hinv : s.Inv sh) : s'.Inv sh ∧ Guar sh s.ring s'.ring := by
  obtain ⟨hsound, hwriter⟩ := hinv
  cases h with
  | call hc =>
      obtain ⟨⟨R, hst⟩, hwait⟩ := hwriter
      refine ⟨⟨hsound, ?_⟩, hsound.guar_refl⟩
      refine (RingCall.prog_runs hst (hc.fits hst hwait)).mono ?_
      rintro inp' s' ⟨R', _, hst', hw', _⟩
      exact ⟨⟨R', hst'⟩, by rw [hw']; exact hwait⟩
  | act =>
      obtain ⟨hguar, hrest⟩ := hwriter _ rfl
      exact ⟨⟨hguar.sound, hrest⟩, hguar⟩
  | done => exact ⟨⟨hsound, hwriter _ rfl⟩, hsound.guar_refl⟩

theorem RingSystem.inv_fresh {sh : RingShared} {startTime holeFixWait : Usize}
    (hwait : holeFixWait.toNat ≤ sh.itemsSize) :
    RingSystem.Inv sh (RingSystem.fresh startTime holeFixWait : RingSystem α) := by
  have hN := sh.itemsSize_le
  have hst : RBInput.Steady sh (freshInput holeFixWait) startTime.toInt
      (⟨ownedMem startTime, .fresh startTime⟩ : Traced α) :=
    steady_newOwned (by omega)
  exact ⟨hst.tracks.sound, ⟨_, hst⟩, hwait⟩

theorem RingSystem.inv_of_steps {sh : RingShared} {s s' : RingSystem α} (hinv : s.Inv sh)
    (h : Relation.ReflTransGen (WriterStep sh) s s') : s'.Inv sh := by
  induction h with
  | refl => exact hinv
  | tail _ hstep ih => exact (hstep.keeps ih).1

/-! ## The reader among the writer's steps -/

/-- A system state with the states passed since the read began, latest first. -/
abbrev History (α : Type) := RingSystem α × List (RingSystem α)

/-- Steps of others, as the reader sees them: the ring only gets later. -/
def Aside (sh : RingShared) (x y : History α) : Prop :=
  Later sh x.1.ring y.1.ring ∧ ∀ z ∈ x.2, z ∈ y.2

theorem Aside.trans {sh : RingShared} (x y z : History α) (h₁ : Aside sh x y)
    (h₂ : Aside sh y z) : Aside sh x z :=
  ⟨h₁.1.trans h₂.1, fun w hw => h₂.2 w (h₁.2 w hw)⟩

def beside (sh : RingShared) : @Reading α (History α) (Prog.record readerMem) (Aside sh) where
  ring x := x.1.ring
  Seen x r := ∃ z ∈ x.2, z.ring = r
  Later := Later sh
  Keeps x y := y = (x.1, x.1 :: x.2)
  later_refl := Later.refl
  later_trans := Later.trans
  rely_refl x := ⟨Later.refl _, fun _ hz => hz⟩
  rely_later h := h.1
  rely_seen h hx := by
    obtain ⟨z, hz, rfl⟩ := hx
    exact ⟨z, h.2 z hz, rfl⟩
  load_answer _ _ := rfl
  load_ring x hc := traced_load hc x.1.ring
  load_keeps x hc := by
    simp only [Prog.record, readerMem, traced_load hc]
  load_seen x r hc hr := by
    simp only [Prog.record, readerMem, traced_load hc]
    rcases hr with ⟨z, hz, rfl⟩ | rfl
    · exact ⟨z, List.mem_cons_of_mem _ hz, rfl⟩
    · exact ⟨x.1, List.mem_cons_self, rfl⟩

/-- The invariant of a run that began at `s₀`: the states passed lie between
`s₀` and the present. -/
structure Passed (sh : RingShared) (s₀ : RingSystem α) (x : History α) : Prop where
  inv : x.1.Inv sh
  since : Guar sh s₀.ring x.1.ring
  between : ∀ z ∈ x.2, Guar sh s₀.ring z.ring ∧ Guar sh z.ring x.1.ring

theorem Passed.next {sh : RingShared} {s₀ : RingSystem α} {x : History α} {s : RingSystem α}
    (h : Passed sh s₀ x) (hinv : s.Inv sh) (hg : Guar sh x.1.ring s.ring) :
    Passed sh s₀ (s, s :: x.2) where
  inv := hinv
  since := h.since.trans hg
  between z hz := by
    rcases List.mem_cons.mp hz with rfl | hz
    · exact ⟨h.since.trans hg, hinv.sound.guar_refl⟩
    · exact ⟨(h.between z hz).1, (h.between z hz).2.trans hg⟩

/-- A run of a reader's program beside the writer, from `s₀` on. -/
abbrev ReadRun {β : Type} (sh : RingShared) (p : RingProg α β) (s₀ : RingSystem α)
    (y : RingProg α β × History α) : Prop :=
  Prog.Steps (Prog.record readerMem) (Prog.recordEnv (WriterStep sh)) (p, (s₀, [s₀])) y

theorem ReadRun.spec {β : Type} {sh : RingShared} {p : RingProg α β} {s₀ : RingSystem α}
    {y : RingProg α β × History α} {Q : β → History α → Prop} (hrun : ReadRun sh p s₀ y)
    (hinv : s₀.Inv sh) (hp : (beside sh).Reads p Q (s₀, [s₀])) :
    (beside sh).Reads y.1 Q y.2 ∧ Passed sh s₀ y.2 := by
  refine Prog.Wp.steps (x := (p, (s₀, [s₀]))) (Passed sh s₀) (beside sh).rely_refl Aside.trans
    ?_ ?_ hp ?_ hrun
  · rintro ⟨s, hist⟩ ⟨s', hist'⟩ hpast ⟨hstep, hh⟩
    simp only at hstep hh
    obtain ⟨hinv', hg⟩ := hstep.keeps hpast.inv
    subst hh
    exact ⟨⟨fun _ => hg, fun z hz => List.mem_cons_of_mem _ hz⟩, hpast.next hinv' hg⟩
  · rintro x y hpast rfl
    exact hpast.next hpast.inv hpast.inv.sound.guar_refl
  · refine ⟨hinv, hinv.sound.guar_refl, fun z hz => ?_⟩
    obtain rfl := List.mem_singleton.mp hz
    exact ⟨hinv.sound.guar_refl, hinv.sound.guar_refl⟩

/-- However the writer and a read are interleaved, every useful item of the
read is the value the timeline had for its time in a state of the run between
the read's begin and its end. `T₀` is the time `t₀` stands for: the positions
stay within `2^63` of it. -/
theorem readAt_history (length : Nat) (hlen : length ≤ 2 ^ 61) (startTime holeFixWait : Usize)
    (hwait : holeFixWait.toNat ≤ (ownedShared length hlen).itemsSize)
    {s₀ s₁ : RingSystem α} {hist : List (RingSystem α)} {T₀ : Int} {out : List α}
    {r : List α × ReadResult}
    (hreach : Relation.ReflTransGen (WriterStep (ownedShared length hlen))
      (RingSystem.fresh startTime holeFixWait) s₀)
    (hrun : ReadRun (ownedShared length hlen)
      (RBOutput.readAt (ownedShared length hlen) (BitVec.ofInt 64 T₀) out) s₀
      (.ret r, (s₁, hist)))
    (hlow : -2 ^ 63 ≤ s₀.ring.readable - T₀) (hhigh : s₁.ring.tl.base - T₀ < 2 ^ 63) :
    ∀ i, r.2.Useful i → ∃ s ∈ hist, r.1[i]? = some (s.ring.tl.value (T₀ + i)) := by
  have hinv := RingSystem.inv_of_steps (RingSystem.inv_fresh hwait) hreach
  obtain ⟨hend, hpast⟩ := hrun.spec hinv
    (RBOutput.readAt_reads (beside _) rfl T₀ out fun x hx => (hx hinv.sound).sound.valid)
  have hout := hend _ ((beside _).rely_refl _)
  -- the positions of every state passed can be told from `T₀`
  have hnear : ∀ z ∈ hist, Sound (ownedShared length hlen) z.ring ∧
      wrapsub z.ring.mem.readablePos (BitVec.ofInt 64 T₀) = z.ring.readable - T₀ ∧
      wrapsub z.ring.mem.writingPos (BitVec.ofInt 64 T₀) = z.ring.tl.base - T₀ := by
    intro z hz
    obtain ⟨h0, h1⟩ := hpast.between z hz
    have hle := h0.sound.le_base
    have hr := h0.readable_le
    have hb := h1.base_le
    simp only at hb
    refine ⟨h0.sound, ?_, ?_⟩
    · rw [h0.sound.reading]
      exact wrapsub_ofInt ⟨by omega, by omega⟩
    · rw [h0.sound.writing]
      exact wrapsub_ofInt ⟨by omega, by omega⟩
  intro i hi
  cases hout with
  | refused x₁ seen hlen hres =>
      rw [hres] at hi
      exact absurd hi.2 (Nat.not_lt_zero i)
  | copied x₁ x₂ n seen₁ seen₂ hlen later hlength huseful hitem =>
      obtain ⟨z₁, hz₁, rfl⟩ := seen₁
      obtain ⟨z₂, hz₂, rfl⟩ := seen₂
      rw [huseful, RBOutput.usefulOf_useful, (hnear z₂ hz₂).2.2] at hi
      rw [RBOutput.copyLen, (hnear z₁ hz₁).2.1] at hlen
      split at hlen
      · cases hlen
      obtain rfl := Option.some.inj hlen
      obtain ⟨x, ⟨z, hz, rfl⟩, hl1, hl2, heq⟩ := hitem i hi.1
      have hsince := (hl1 (hnear z₁ hz₁).1).readable_le
      have huntil := (hl2 (hnear z hz).1).base_le
      refine ⟨z, hz, ?_⟩
      rw [heq, (hnear z hz).1.faithful (T₀ + i) (by omega) (by omega)]

/-! ## Runs of the writer from its calls -/

theorem writerSteps_of_exec {sh : RingShared} {p : RingProg α RBInput} {ring ring' : Traced α}
    {inp : RBInput} (hexec : p.exec traced ring = some (inp, ring')) :
    Relation.ReflTransGen (WriterStep sh) ⟨ring, .busy p⟩ ⟨ring', .busy (.ret inp)⟩ := by
  induction p generalizing ring with
  | ret inp' =>
      obtain ⟨rfl, rfl⟩ := Prod.mk.inj (Option.some.inj hexec)
      exact .refl
  | act c k ih => exact .head .act (ih _ hexec)
  | fail => cases hexec

theorem writerSteps_of_call {sh : RingShared} {c : RingCall α} {ring ring' : Traced α}
    {inp inp' : RBInput} (hc : c.InWindow sh (inp, ring.mem))
    (hexec : (c.prog sh inp).exec traced ring = some (inp', ring')) :
    Relation.ReflTransGen (WriterStep sh) ⟨ring, .idle inp⟩ ⟨ring', .idle inp'⟩ :=
  .head (.call hc) ((writerSteps_of_exec hexec).tail .done)

/-- A ring of four slots after a call that writes two samples. -/
def twoWritten : Option (RBInput × Traced Nat) :=
  ((RingCall.write 0 [7, 8]).prog (ownedShared 4 (by decide)) (freshInput 2)).exec traced
    ⟨ownedMem 0, .fresh 0⟩

/-- The read of both, with nothing in between from some point of a run on. -/
def readTwo (x : History Nat) : Option ((List Nat × ReadResult) × History Nat) :=
  (RBOutput.readAt (ownedShared 4 (by decide)) (BitVec.ofInt 64 0) [0, 0]).exec
    (Prog.record readerMem) x

/-- Both samples, read while the writer begins its next call. -/
theorem readAt_history_twoWritten :
    ∃ (s₀ s₁ : RingSystem Nat) (hist : List (RingSystem Nat)) (r : List Nat × ReadResult),
      ReadRun (ownedShared 4 (by decide))
        (RBOutput.readAt (ownedShared 4 (by decide)) (BitVec.ofInt 64 0) [0, 0]) s₀
        (.ret r, (s₁, hist)) ∧ r.2 = ⟨0, 2⟩ ∧
      ∀ i, r.2.Useful i → ∃ s ∈ hist, r.1[i]? = some (s.ring.tl.value (0 + i)) := by
  obtain ⟨⟨inp, ring⟩, hw⟩ : ∃ x, twoWritten = some x := Option.isSome_iff_exists.mp (by decide)
  have hfacts : ∀ x ∈ twoWritten, x.2.readable = 2 ∧
      (RingCall.write 2 [9]).InWindow (ownedShared 4 (by decide)) (x.1, x.2.mem) := by
    decide
  obtain ⟨hreadable, hin⟩ := hfacts _ hw
  have hreads : ∀ x ∈ twoWritten,
      ∃ y ∈ readTwo (⟨x.2, .busy ((RingCall.write 2 [9]).prog (ownedShared 4 (by decide)) x.1)⟩,
        [⟨x.2, .busy ((RingCall.write 2 [9]).prog (ownedShared 4 (by decide)) x.1)⟩,
          ⟨x.2, .idle x.1⟩]), y.1.2 = ⟨0, 2⟩ ∧ y.2.1.ring.tl.base = 2 := by
    decide
  obtain ⟨⟨r, s₁, hist⟩, hread, huseful, hbase⟩ := hreads _ hw
  have hrun : ReadRun (ownedShared 4 (by decide))
      (RBOutput.readAt (ownedShared 4 (by decide)) (BitVec.ofInt 64 0) [0, 0]) ⟨ring, .idle inp⟩
      (.ret r, (s₁, hist)) :=
    .head (.env _ ⟨.call hin, rfl⟩) (Prog.steps_of_exec hread)
  refine ⟨_, s₁, hist, r, hrun, huseful, ?_⟩
  exact readAt_history 4 (by decide) 0 2 (by decide) (writerSteps_of_call (by decide) hw) hrun
    (by simp only [hreadable]; decide) (by simp only at hbase; rw [hbase]; decide)

end Inferno
