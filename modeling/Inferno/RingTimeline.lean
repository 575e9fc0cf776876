import Inferno.RingWalk

/-!
# The timeline a ring buffer stands for

A `Timeline` is what the ring is for: which sample was last written for each
point of unbounded time, and how far writing has got. `Timeline.write` and
`Timeline.close` are the two calls of the writer at this level. Timestamps of
the code are wrapped; `place` reads them relative to the writing position.

A `Traced` memory carries its timeline along: a store of the writing position
moves `base`, a stamped store of an item enters the sample. `Tracks` is the
invariant that ties the two together, and the lemmas below say what each kind
of store does to it. Everything is about the window `[base - N, base)`, on
which a slot stands for exactly one time.
-/

namespace Inferno

open Serial

variable {α : Type}

/-! ## Timelines -/

structure Timeline (α : Type) where
  base : Int
  sample : Int → Option α

namespace Timeline

/-- The sample most recently written at `t`, or the default if none was. -/
def value [Inhabited α] (tl : Timeline α) (t : Int) : α := (tl.sample t).getD default

def place (tl : Timeline α) (ts : Usize) : Int := Serial.place tl.base ts

def put (tl : Timeline α) (t : Int) (x : α) : Timeline α :=
  { tl with sample := Function.update tl.sample t (some x) }

/-- The samples of `xs`, written from time `t` on. -/
def putAll (tl : Timeline α) (t : Int) (xs : List α) : Timeline α :=
  { tl with sample := fun u => if t ≤ u ∧ u < t + xs.length then xs[(u - t).toNat]?
                               else tl.sample u }

/-- A call of `write_from_at`. -/
def write (tl : Timeline α) (ts : Usize) (xs : List α) : Timeline α :=
  { tl.putAll (tl.place ts) xs with base := max tl.base (tl.place ts + xs.length) }

/-- A call of `close_items_until`. -/
def close (tl : Timeline α) (untilPos : Usize) : Timeline α :=
  { tl with base := max tl.base (tl.place untilPos) }

/-- What one atomic action means for the timeline. -/
def observe (tl : Timeline α) : RingOp α → Timeline α
  | .storeWriting v => { tl with base := tl.place v }
  | .storeItem _ x (some ts) => tl.put (tl.place ts) x
  | _ => tl

@[simp] theorem putAll_nil (tl : Timeline α) (t : Int) : tl.putAll t [] = tl := by
  have : ∀ u, ¬(t ≤ u ∧ u < t) := fun u => by omega
  simp [putAll, this]

@[simp] theorem putAll_base (tl : Timeline α) (t : Int) (xs : List α) :
    (tl.putAll t xs).base = tl.base := rfl

theorem putAll_sample_of_mem {tl : Timeline α} {t u : Int} {xs : List α}
    (h1 : t ≤ u) (h2 : u < t + xs.length) : (tl.putAll t xs).sample u = xs[(u - t).toNat]? := by
  simp [putAll, h1, h2]

theorem putAll_sample_of_not_mem {tl : Timeline α} {t u : Int} {xs : List α}
    (h : ¬(t ≤ u ∧ u < t + xs.length)) : (tl.putAll t xs).sample u = tl.sample u := by
  simp only [putAll, if_neg h]

/-- Writing one more sample behind those already written. -/
theorem put_putAll (tl : Timeline α) (t : Int) (xs : List α) (x : α) :
    (tl.putAll t xs).put (t + xs.length) x = tl.putAll t (xs ++ [x]) := by
  simp only [put, putAll, Timeline.mk.injEq, true_and]
  funext u
  by_cases hu : u = t + xs.length
  · subst hu
    simp
  · rw [Function.update_of_ne hu]
    by_cases hin : t ≤ u ∧ u < t + xs.length
    · rw [if_pos hin, if_pos ⟨hin.1, by simp; omega⟩, List.getElem?_append_left (by omega)]
    · rw [if_neg hin, if_neg (by simp; omega)]

theorem value_of_some [Inhabited α] {tl : Timeline α} {t : Int} {x : α}
    (h : tl.sample t = some x) : tl.value t = x := by
  simp [value, h]

theorem value_of_none [Inhabited α] {tl : Timeline α} {t : Int}
    (h : tl.sample t = none) : tl.value t = default := by
  simp [value, h]

end Timeline

/-! ## Memory with its timeline -/

structure Traced (α : Type) where
  mem : RingMem α
  tl : Timeline α

/-- The handler of `ringMem` with the timeline watching. -/
def traced : Handler (RingIface α) (Traced α) :=
  fun c s => ((ringMem c s.mem).1, ⟨(ringMem c s.mem).2, s.tl.observe c⟩)

/-- The watched run is the plain one. -/
theorem exec_mem {β : Type} (p : RingProg α β) (s : Traced α) :
    p.exec ringMem s.mem = (p.exec traced s).map fun r => (r.1, r.2.mem) :=
  Prog.exec_map Traced.mem (fun _ _ => rfl) p s

namespace Traced

def storeWriting (s : Traced α) (v : Usize) : Traced α :=
  ⟨{ s.mem with writingPos := v }, { s.tl with base := s.tl.place v }⟩

def storeReadable (s : Traced α) (v : Usize) : Traced α :=
  ⟨{ s.mem with readablePos := v }, s.tl⟩

def storeDefault [Inhabited α] (s : Traced α) (i : Nat) : Traced α :=
  ⟨{ s.mem with buffer := Function.update s.mem.buffer i default }, s.tl⟩

def storeSample (s : Traced α) (i : Nat) (x : α) (ts : Usize) : Traced α :=
  ⟨{ s.mem with buffer := Function.update s.mem.buffer i x }, s.tl.put (s.tl.place ts) x⟩

def addHole (s : Traced α) : Traced α :=
  ⟨{ s.mem with holesCount := s.mem.holesCount + 1 }, s.tl⟩

def report (s : Traced α) (v : Usize) : Traced α :=
  ⟨{ s.mem with reported := v }, s.tl⟩

/-- Where `readable_pos` stands on the timeline. -/
def readable (s : Traced α) : Int := s.tl.base - wrapsub s.mem.writingPos s.mem.readablePos

/-- The cell of the slot of time `t`. -/
def cell (sh : RingShared) (s : Traced α) (t : Int) : α :=
  s.mem.buffer (slot sh.itemsSize t * sh.stride)

end Traced

/-! ## Facts about the configuration -/

namespace RingShared

variable (sh : RingShared)

theorem itemsSize_pos : 0 < sh.itemsSize := by
  obtain ⟨k, hk⟩ := sh.isPowerOfTwo
  exact hk ▸ Nat.two_pow_pos k

theorem itemsSize_log : ∃ k ≤ 61, sh.itemsSize = 2 ^ k := by
  obtain ⟨k, hk⟩ := sh.isPowerOfTwo
  refine ⟨k, ?_, hk⟩
  have hle := sh.itemsSize_le
  rw [hk] at hle
  exact (Nat.pow_le_pow_iff_right (by decide)).mp hle

/-- Every slot of the ring lies in the buffer. -/
theorem slot_in_buffer {i : Nat} (h : i < sh.itemsSize) : i * sh.stride < sh.bufferLen := by
  have hpos := sh.stride_pos
  rw [sh.itemsSize_eq] at h
  have := (Nat.le_div_iff_mul_le hpos).mp (Nat.succ_le_of_lt h)
  rw [Nat.succ_mul] at this
  omega

theorem forInRing_ofInt (a : Int) {len : Int} (h0 : 0 ≤ len) (hlt : len < 2 ^ 64) :
    forInRing sh.itemsSize (BitVec.ofInt 64 a) (BitVec.ofInt 64 (a + len)) =
      (List.range (visits sh.itemsSize len)).map fun j => slot sh.itemsSize (a + (j : Nat)) := by
  obtain ⟨k, hk, hpow⟩ := sh.itemsSize_log
  exact Inferno.forInRing_ofInt hpow (by omega) a h0 hlt

end RingShared

/-- A store to slot `i` changes the cells of the times of that slot only. -/
theorem update_cell (sh : RingShared) (b : Nat → α) (i : Nat) (x : α) (t : Int) :
    Function.update b (i * sh.stride) x (slot sh.itemsSize t * sh.stride) =
      if slot sh.itemsSize t = i then x else b (slot sh.itemsSize t * sh.stride) := by
  split
  · next h => rw [h, Function.update_self]
  · next h =>
      exact Function.update_of_ne (fun heq => h (Nat.mul_right_cancel sh.stride_pos heq)) _ _

theorem Traced.cell_storeDefault [Inhabited α] (sh : RingShared) (s : Traced α) (i : Nat)
    (t : Int) : (s.storeDefault (i * sh.stride)).cell sh t =
      if slot sh.itemsSize t = i then default else s.cell sh t :=
  update_cell sh s.mem.buffer i default t

theorem Traced.cell_storeSample (sh : RingShared) (s : Traced α) (i : Nat) (x : α) (ts : Usize)
    (t : Int) : (s.storeSample (i * sh.stride) x ts).cell sh t =
      if slot sh.itemsSize t = i then x else s.cell sh t :=
  update_cell sh s.mem.buffer i x t

/-! ## The invariant -/

/-- The window `[base - N, base)` of a traced memory is in order: `R` is the
readable position, `ready` the writer's bits, and the times in `pending` are
those an unfinished call is still going to write. -/
structure Tracks [Inhabited α] (sh : RingShared) (ready : Nat → Bool) (pending : Int → Prop)
    (R : Int) (s : Traced α) : Prop where
  valid : s.mem.valid = true
  writing : s.mem.writingPos = BitVec.ofInt 64 s.tl.base
  reading : s.mem.readablePos = BitVec.ofInt 64 R
  le_base : R ≤ s.tl.base
  lag : s.tl.base - R < 2 ^ 63
  kept : ∀ t x, s.tl.base - sh.itemsSize ≤ t → s.tl.sample t = some x → s.cell sh t = x
  ready_iff : ∀ t, s.tl.base - sh.itemsSize ≤ t → t < s.tl.base → R ≤ t → ¬pending t →
    (ready (slot sh.itemsSize t) = true ↔ (s.tl.sample t).isSome)
  silent : ∀ t, s.tl.base - sh.itemsSize ≤ t → t < R → s.tl.sample t = none →
    s.cell sh t = default
  future : ∀ t, s.tl.base ≤ t → s.tl.sample t = none

/-- What a reader may rely on in any memory state: everything readable that
is not yet overwritten is what the timeline has. -/
structure Sound [Inhabited α] (sh : RingShared) (s : Traced α) : Prop where
  valid : s.mem.valid = true
  writing : s.mem.writingPos = BitVec.ofInt 64 s.tl.base
  reading : s.mem.readablePos = BitVec.ofInt 64 s.readable
  le_base : s.readable ≤ s.tl.base
  faithful : ∀ t, s.tl.base - sh.itemsSize ≤ t → t < s.readable → s.cell sh t = s.tl.value t

/-- What every action of the writer guarantees: the next state is sound and
neither position has moved backwards. -/
structure Guar [Inhabited α] (sh : RingShared) (s s' : Traced α) : Prop where
  sound : Sound sh s'
  base_le : s.tl.base ≤ s'.tl.base
  readable_le : s.readable ≤ s'.readable

theorem Sound.guar_refl [Inhabited α] {sh : RingShared} {s : Traced α} (h : Sound sh s) :
    Guar sh s s :=
  ⟨h, Int.le_refl _, Int.le_refl _⟩

namespace Tracks

variable [Inhabited α] {sh : RingShared} {ready : Nat → Bool} {pending : Int → Prop}
  {R : Int} {s : Traced α}

theorem wrapsub_eq (h : Tracks sh ready pending R s) :
    wrapsub s.mem.writingPos s.mem.readablePos = s.tl.base - R := by
  rw [h.writing, h.reading]
  have := h.le_base
  exact wrapsub_ofInt ⟨by omega, h.lag⟩

theorem readable_eq (h : Tracks sh ready pending R s) : s.readable = R := by
  rw [Traced.readable, h.wrapsub_eq]
  omega

theorem sound (h : Tracks sh ready pending R s) : Sound sh s where
  valid := h.valid
  writing := h.writing
  reading := by rw [h.readable_eq]; exact h.reading
  le_base := by rw [h.readable_eq]; exact h.le_base
  faithful t hlo hhi := by
    rw [h.readable_eq] at hhi
    cases hs : s.tl.sample t with
    | none => rw [Timeline.value_of_none hs]; exact h.silent t hlo hhi hs
    | some x => rw [Timeline.value_of_some hs]; exact h.kept t x hlo hs

theorem lt_base (h : Tracks sh ready pending R s) {t : Int} {x : α}
    (hs : s.tl.sample t = some x) : t < s.tl.base := by
  by_contra hge
  rw [h.future t (by omega)] at hs
  cases hs

theorem mono_pending {pending' : Int → Prop} (h : Tracks sh ready pending R s)
    (hp : ∀ t, pending t → pending' t) : Tracks sh ready pending' R s :=
  { h with ready_iff := fun t h1 h2 h3 h4 => h.ready_iff t h1 h2 h3 fun hpt => h4 (hp t hpt) }

/-! ## What each store does to the invariant -/

theorem addHole (h : Tracks sh ready pending R s) : Tracks sh ready pending R s.addHole :=
  ⟨h.valid, h.writing, h.reading, h.le_base, h.lag, h.kept, h.ready_iff, h.silent, h.future⟩

theorem report (h : Tracks sh ready pending R s) (v : Usize) :
    Tracks sh ready pending R (s.report v) :=
  ⟨h.valid, h.writing, h.reading, h.le_base, h.lag, h.kept, h.ready_iff, h.silent, h.future⟩

/-- A forward store of the writing position shrinks the window from behind.
The bits of the times it adds must be clear, except where writing is pending. -/
theorem storeWriting {ready' : Nat → Bool} {pending' : Int → Prop} {U : Int}
    (h : Tracks sh ready pending R s) (hU : s.tl.base ≤ U) (hlag : U - R < 2 ^ 63)
    (hp : ∀ t, pending t → pending' t)
    (hold : ∀ t, U - sh.itemsSize ≤ t → t < s.tl.base →
      ready' (slot sh.itemsSize t) = ready (slot sh.itemsSize t))
    (hnew : ∀ t, U - sh.itemsSize ≤ t → s.tl.base ≤ t → t < U → R ≤ t → ¬pending' t →
      ready' (slot sh.itemsSize t) = false) :
    Tracks sh ready' pending' R (s.storeWriting (BitVec.ofInt 64 U)) := by
  have hle := h.le_base
  have hplace : s.tl.place (BitVec.ofInt 64 U) = U :=
    Serial.place_ofInt (by decide) ⟨by omega, by omega⟩
  exact {
    valid := h.valid
    writing := by simp only [Traced.storeWriting, hplace]
    reading := h.reading
    le_base := by simp only [Traced.storeWriting, hplace]; omega
    lag := by simp only [Traced.storeWriting, hplace]; omega
    kept := fun t x hlo hs => by
      simp only [Traced.storeWriting, hplace] at hlo
      exact h.kept t x (by omega) hs
    ready_iff := fun t hlo hhi hR hpend => by
      simp only [Traced.storeWriting, hplace] at hlo hhi ⊢
      by_cases hb : t < s.tl.base
      · rw [hold t hlo hb]
        exact h.ready_iff t (by omega) hb hR fun hpt => hpend (hp t hpt)
      · rw [hnew t hlo (by omega) hhi hR hpend, h.future t (by omega)]
        simp
    silent := fun t hlo hlt hs => by
      simp only [Traced.storeWriting, hplace] at hlo
      exact h.silent t (by omega) hlt hs
    future := fun t ht => by
      simp only [Traced.storeWriting, hplace] at ht
      exact h.future t (by omega) }

/-- A forward store of the readable position needs silence in the cells it
uncovers that were never written. -/
theorem storeReadable {R' : Int} (h : Tracks sh ready pending R s) (hR : R ≤ R')
    (hbase : R' ≤ s.tl.base)
    (hsil : ∀ t, s.tl.base - sh.itemsSize ≤ t → R ≤ t → t < R' → s.tl.sample t = none →
      s.cell sh t = default) :
    Tracks sh ready pending R' (s.storeReadable (BitVec.ofInt 64 R')) where
  valid := h.valid
  writing := h.writing
  reading := rfl
  le_base := hbase
  lag := by have := h.lag; simp only [Traced.storeReadable]; omega
  kept := h.kept
  ready_iff t hlo hhi hR' hpend := h.ready_iff t hlo hhi (by omega) hpend
  silent t hlo hlt hs := by
    by_cases ht : t < R
    · exact h.silent t hlo ht hs
    · exact hsil t hlo (by omega) hlt hs
  future := h.future

/-- A default stored over a slot no sample of the window is kept in. -/
theorem storeDefault {i : Nat} (h : Tracks sh ready pending R s)
    (hfree : ∀ t, s.tl.base - sh.itemsSize ≤ t → t < s.tl.base → slot sh.itemsSize t = i →
      s.tl.sample t = none) :
    Tracks sh ready pending R (s.storeDefault (i * sh.stride)) where
  valid := h.valid
  writing := h.writing
  reading := h.reading
  le_base := h.le_base
  lag := h.lag
  kept t x hlo hs := by
    have hne : slot sh.itemsSize t ≠ i := fun heq => by
      have hnone := hfree t hlo (h.lt_base hs) heq
      rw [show s.tl.sample t = some x from hs] at hnone
      cases hnone
    rw [Traced.cell_storeDefault, if_neg hne]
    exact h.kept t x hlo hs
  ready_iff := h.ready_iff
  silent t hlo hlt hs := by
    by_cases heq : slot sh.itemsSize t = i
    · rw [Traced.cell_storeDefault, if_pos heq]
    · rw [Traced.cell_storeDefault, if_neg heq]
      exact h.silent t hlo hlt hs
  future := h.future

/-- A sample stored for a time of the window, with its bit. -/
theorem storeSample {pending' : Int → Prop} {T : Int} {x : α} (h : Tracks sh ready pending R s)
    (hlo : s.tl.base - sh.itemsSize ≤ T) (hhi : T < s.tl.base)
    (hp : ∀ t, pending t → t = T ∨ pending' t) :
    Tracks sh (Function.update ready (slot sh.itemsSize T) true) pending' R
      (s.storeSample (slot sh.itemsSize T * sh.stride) x (BitVec.ofInt 64 T)) := by
  have hN := sh.itemsSize_pos
  have hle := sh.itemsSize_le
  have hplace : s.tl.place (BitVec.ofInt 64 T) = T :=
    Serial.place_ofInt (by decide) ⟨by omega, by omega⟩
  -- within the window the slot of `T` is the slot of no other time
  have hother : ∀ t, s.tl.base - sh.itemsSize ≤ t → t < s.tl.base → t ≠ T →
      slot sh.itemsSize t ≠ slot sh.itemsSize T := fun t h1 h2 hne heq =>
    hne (slot_inj hN heq (by omega) (by omega))
  exact {
    valid := h.valid
    writing := h.writing
    reading := h.reading
    le_base := h.le_base
    lag := h.lag
    kept := fun t y hlo' hs => by
      simp only [Traced.storeSample, Timeline.put, hplace] at hlo' hs
      by_cases ht : t = T
      · subst ht
        rw [Function.update_self] at hs
        rw [Traced.cell_storeSample, if_pos rfl]
        exact Option.some.inj hs
      · rw [Function.update_of_ne ht] at hs
        rw [Traced.cell_storeSample, if_neg (hother t hlo' (h.lt_base hs) ht)]
        exact h.kept t y hlo' hs
    ready_iff := fun t hlo' hhi' hR hpend => by
      simp only [Traced.storeSample, Timeline.put, hplace] at hlo' hhi' ⊢
      by_cases ht : t = T
      · subst ht
        simp
      · rw [Function.update_of_ne (hother t hlo' hhi' ht), Function.update_of_ne ht]
        exact h.ready_iff t hlo' hhi' hR fun hpt => (hp t hpt).elim ht hpend
    silent := fun t hlo' hlt hs => by
      simp only [Traced.storeSample, Timeline.put, hplace] at hlo' hs
      have ht : t ≠ T := fun heq => by
        rw [heq, Function.update_self] at hs
        cases hs
      rw [Function.update_of_ne ht] at hs
      have hb : t < s.tl.base := by have := h.le_base; omega
      rw [Traced.cell_storeSample, if_neg (hother t hlo' hb ht)]
      exact h.silent t hlo' hlt hs
    future := fun t ht => by
      simp only [Traced.storeSample, Timeline.put, hplace] at ht ⊢
      rw [Function.update_of_ne (by omega)]
      exact h.future t ht }

end Tracks

end Inferno
