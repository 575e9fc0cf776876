import Inferno.RingTimeline

/-!
# The reader's program

`read_at` loads the readable position, copies, and only then loads the
writing position. What it returns is described in terms of the memories it
met: `x₁` at the first load, `x₂` at the last, and for every copied index one
memory in between (`Copied`). The specification assumes nothing about the
other threads; how the memories met are related is the business of a
`Reading`, which says what a load sees and which relation `Later` between
memories the others keep. Alone, all the memories are one and the same; beside
a writer, they are states of the run ordered by the writer's guarantee.
-/

namespace Inferno

open Serial

variable {α : Type}

/-! ## What a load sees -/

def RingOp.IsLoad : RingOp α → Prop
  | .loadReadable | .loadWriting | .loadHoles | .lockBuffer | .loadItem _ => True
  | _ => False

/-- A shared state as a reader among others sees it: the ring in it, the rings
seen so far, the relation others keep between the ring and later ones, and
what the reader's own loads leave as it is. -/
structure Reading {σ : Type} (h : Handler (RingIface α) σ) (rely : σ → σ → Prop) where
  ring : σ → Traced α
  Seen : σ → Traced α → Prop
  Later : Traced α → Traced α → Prop
  Keeps : σ → σ → Prop
  later_refl : ∀ x, Later x x
  later_trans : ∀ {x y z}, Later x y → Later y z → Later x z
  rely_refl : ∀ s, rely s s
  rely_later : ∀ {s s'}, rely s s' → Later (ring s) (ring s')
  rely_seen : ∀ {s s' x}, rely s s' → Seen s x → Seen s' x
  load_answer : ∀ c s, (h c s).1 = (ringMem c (ring s).mem).1
  load_ring : ∀ {c} s, c.IsLoad → ring (h c s).2 = ring s
  load_keeps : ∀ {c} s, c.IsLoad → Keeps s (h c s).2
  load_seen : ∀ {c} s x, c.IsLoad → Seen s x ∨ x = ring s → Seen (h c s).2 x

namespace Reading

variable {σ β γ : Type} {h : Handler (RingIface α) σ} {rely : σ → σ → Prop}
  (V : Reading h rely) {s : σ} {Q : β → σ → Prop}

/-- The reader's judgement. -/
def Reads (p : RingProg α β) (Q : β → σ → Prop) (s : σ) : Prop :=
  Prog.Wp h rely V.Keeps p Q s

/-- `s'` comes after `s`: what was seen stays seen, and the ring is later. -/
structure After (s s' : σ) : Prop where
  later : V.Later (V.ring s) (V.ring s')
  seen : ∀ x, V.Seen s x → V.Seen s' x

theorem After.trans {V : Reading h rely} {s₁ s₂ s₃ : σ} (h₁ : V.After s₁ s₂)
    (h₂ : V.After s₂ s₃) : V.After s₁ s₃ :=
  ⟨V.later_trans h₁.later h₂.later, fun x hx => h₂.seen x (h₁.seen x hx)⟩

theorem after_rely {s s' : σ} (hr : rely s s') : V.After s s' :=
  ⟨V.rely_later hr, fun _ => V.rely_seen hr⟩

theorem bind_of {p : RingProg α γ} {f : γ → RingProg α β} {Q' : γ → σ → Prop}
    (hp : V.Reads p Q' s) (hf : ∀ c s', Q' c s' → V.Reads (f c) Q s') : V.Reads (p >>= f) Q s :=
  Prog.Wp.bind V.rely_refl (Prog.Wp.mono hp hf)

theorem ret {b : β} (hQ : ∀ s', V.After s s' → Q b s') : V.Reads (Prog.ret b) Q s :=
  fun _ hr => hQ _ (V.after_rely hr)

/-- A load is answered by one ring `x`, which has been seen from then on. -/
theorem load {c : RingOp α} {k : RingOp.Res c → RingProg α β} (hc : c.IsLoad)
    (hk : ∀ x s', V.Later (V.ring s) x → V.Later x (V.ring s') → V.Seen s' x → V.After s s' →
      V.Reads (k (ringMem c x.mem).1) Q s') :
    V.Reads (Prog.act c k) Q s := by
  intro s' hr
  have hrely := V.after_rely hr
  have hring := V.load_ring s' hc
  refine ⟨V.load_keeps s' hc, ?_⟩
  rw [V.load_answer]
  refine hk (V.ring s') _ hrely.later ?_ (V.load_seen s' _ hc (.inr rfl)) ?_
  · rw [hring]
    exact V.later_refl _
  · refine hrely.trans ⟨?_, fun x hx => V.load_seen s' x hc (.inl hx)⟩
    rw [hring]
    exact V.later_refl _

theorem loadReadable {k : Usize → RingProg α β}
    (hk : ∀ x s', V.Later (V.ring s) x → V.Later x (V.ring s') → V.Seen s' x → V.After s s' →
      V.Reads (k x.mem.readablePos) Q s') :
    V.Reads (RingAct.loadReadable >>= k) Q s :=
  V.load trivial hk

theorem loadWriting {k : Usize → RingProg α β}
    (hk : ∀ x s', V.Later (V.ring s) x → V.Later x (V.ring s') → V.Seen s' x → V.After s s' →
      V.Reads (k x.mem.writingPos) Q s') :
    V.Reads (RingAct.loadWriting >>= k) Q s :=
  V.load trivial hk

theorem lockBuffer {k : Bool → RingProg α β}
    (hvalid : ∀ x, V.Later (V.ring s) x → x.mem.valid = true)
    (hk : ∀ s', V.After s s' → V.Reads (k true) Q s') :
    V.Reads (RingAct.lockBuffer >>= k) Q s := by
  refine V.load trivial fun x s' hx _ _ ha => ?_
  rw [show (ringMem .lockBuffer x.mem).1 = true from hvalid x hx]
  exact hk s' ha

theorem loadItem {sh : RingShared} {i : Nat} {k : α → RingProg α β} (hi : i < sh.itemsSize)
    (hk : ∀ x s', V.Later (V.ring s) x → V.Later x (V.ring s') → V.Seen s' x → V.After s s' →
      V.Reads (k (x.mem.buffer (i * sh.stride))) Q s') :
    V.Reads (RingAct.loadItem sh i >>= k) Q s := by
  rw [RingAct.loadItem, if_pos (sh.slot_in_buffer hi)]
  exact V.load trivial hk

end Reading

/-! ## The copy -/

namespace RBOutput

variable {σ : Type} {h : Handler (RingIface α) σ} {rely : σ → σ → Prop} (V : Reading h rely)
  {sh : RingShared} {T₀ : Int} {x₁ : Traced α} {s : σ}

/-- The first `n` items of `out` were copied from the cells of the times from
`T₀` on, each of a ring seen between `x₁` and the ring of `s`. -/
structure Copied (sh : RingShared) (T₀ : Int) (len : Nat) (x₁ : Traced α) (n : Nat)
    (out : List α) (s : σ) : Prop where
  length : out.length = len
  first : V.Seen s x₁
  since : V.Later x₁ (V.ring s)
  item : ∀ i < n, ∃ x, V.Seen s x ∧ V.Later x₁ x ∧ V.Later x (V.ring s) ∧
    out[i]? = some (x.cell sh (T₀ + i))

theorem Copied.after {len n : Nat} {out : List α} {s' : σ}
    (hc : Copied V sh T₀ len x₁ n out s) (ha : V.After s s') :
    Copied V sh T₀ len x₁ n out s' := by
  refine ⟨hc.length, ha.seen _ hc.first, V.later_trans hc.since ha.later, fun i hi => ?_⟩
  obtain ⟨x, hseen, hl1, hl2, heq⟩ := hc.item i hi
  exact ⟨x, ha.seen x hseen, hl1, V.later_trans hl2 ha.later, heq⟩

theorem readItem_reads {len n : Nat} {out : List α} (hc : Copied V sh T₀ len x₁ n out s)
    (hn : n < len) :
    V.Reads (readItem sh (out, n) (slot sh.itemsSize (T₀ + n))) (fun acc s' =>
      acc.2 = n + 1 ∧ Copied V sh T₀ len x₁ (n + 1) acc.1 s') s := by
  have hlen := hc.length
  unfold readItem
  refine V.loadItem (slot_lt sh.itemsSize_pos _) fun x s' hl1 hl2 hseen ha => ?_
  rw [Prog.bind_eq, Prog.assert_bind (show n < out.length by omega)]
  refine V.ret fun s'' ha' => ⟨rfl, Copied.after V ⟨?_, ?_, ?_, fun i hi => ?_⟩ ha'⟩
  · rw [List.length_set, hlen]
  · exact ha.seen _ hc.first
  · exact V.later_trans hc.since ha.later
  · rcases Nat.lt_succ_iff_lt_or_eq.mp hi with hlt | rfl
    · rw [List.getElem?_set_ne (by omega)]
      exact (hc.after V ha).item i hlt
    · exact ⟨x, hseen, V.later_trans hc.since hl1, hl2,
        List.getElem?_set_self (show out.length > i from hlen ▸ hn)⟩

/-- The copy of `n` items, at most a lap and at most the output's length. -/
theorem copy_reads {n : Nat} {output : List α} (hn : n ≤ output.length) (hlap : n ≤ sh.itemsSize)
    (hseen : V.Seen s x₁) (hsince : V.Later x₁ (V.ring s)) :
    V.Reads ((forInRing sh.itemsSize (BitVec.ofInt 64 T₀) (BitVec.ofInt 64 (T₀ + n))).foldlM
      (readItem sh) (output, 0))
      (fun acc s' => Copied V sh T₀ output.length x₁ n acc.1 s') s := by
  have hle := sh.itemsSize_le
  have hvis : visits sh.itemsSize (n : Int) = n := by
    have := visits_of_le (N := sh.itemsSize) (show (0 : Int) ≤ n by omega) (by omega)
    omega
  rw [sh.forInRing_ofInt T₀ (by omega) (by omega), hvis]
  refine (Prog.Wp.foldlM (fun (pre : List Nat) acc s => acc.2 = pre.length ∧
      Copied V sh T₀ output.length x₁ pre.length acc.1 s) V.rely_refl ?_ ?_ ?_).mono ?_
  · rintro pre acc s s' ⟨h1, h2⟩ hr
    exact ⟨h1, h2.after V (V.after_rely hr)⟩
  · rintro pre x post ⟨out, k⟩ s hl ⟨rfl, hinv⟩
    have hj : pre.length < n := by
      have hlen := congrArg List.length hl
      simp at hlen
      omega
    obtain rfl : x = slot sh.itemsSize (T₀ + pre.length) := by
      have hget := congrArg (fun l => l[pre.length]?) hl
      simpa [hj, eq_comm] using hget
    refine (readItem_reads V hinv (by omega)).mono fun acc s' hacc => ?_
    rw [List.length_append, List.length_singleton]
    exact hacc
  · exact ⟨rfl, rfl, hseen, hsince, fun i hi => absurd hi (Nat.not_lt_zero i)⟩
  · rintro acc s' ⟨_, hc⟩
    simpa using hc

/-! ## The whole read -/

/-- How many items are copied when the readable position is `r` ahead, if any. -/
def copyLen (sh : RingShared) (r : Int) (len : Nat) : Option Nat :=
  if r < 0 ∨ r > sh.itemsSize then none else some (min len r.toNat)

/-- The range reported for `n` copied items when the writing position is
`diff` ahead. -/
def usefulOf (sh : RingShared) (diff : Int) (n : Nat) : ReadResult :=
  if diff > sh.itemsSize then ⟨min (diff.toNat - sh.itemsSize) n, n⟩ else ⟨0, n⟩

theorem usefulOf_useful {diff : Int} {n i : Nat} :
    (usefulOf sh diff n).Useful i ↔ i < n ∧ diff - sh.itemsSize ≤ i := by
  unfold usefulOf ReadResult.Useful
  split <;> simp only <;> omega

theorem outputLen_reads (hown : sh.unconditionalRead = false) (t₀ : Usize) (len : Nat) :
    V.Reads (outputLen sh t₀ len) (fun o s' => V.After s s' ∧ ∃ x₁, V.Later (V.ring s) x₁ ∧
      V.Later x₁ (V.ring s') ∧ V.Seen s' x₁ ∧
      o = copyLen sh (wrapsub x₁.mem.readablePos t₀) len) s := by
  rw [outputLen, hown]
  refine V.loadReadable fun x s' h1 h2 h3 ha => ?_
  dsimp only
  unfold copyLen
  split
  · next hout =>
      refine V.ret fun s'' ha' => ⟨ha.trans ha', x, h1, V.later_trans h2 ha'.later,
        ha'.seen x h3, ?_⟩
      rw [if_pos hout]
  · next hin =>
      refine V.ret fun s'' ha' => ⟨ha.trans ha', x, h1, V.later_trans h2 ha'.later,
        ha'.seen x h3, ?_⟩
      rw [if_neg hin]

theorem usefulRange_reads (hown : sh.unconditionalRead = false) (t₀ : Usize) (n : Nat) :
    V.Reads (usefulRange sh t₀ n) (fun r s' => V.After s s' ∧ ∃ x₂, V.Later (V.ring s) x₂ ∧
      V.Seen s' x₂ ∧ r = usefulOf sh (wrapsub x₂.mem.writingPos t₀) n) s := by
  rw [usefulRange, hown]
  refine V.loadWriting fun x s' h1 h2 h3 ha => ?_
  dsimp only
  unfold usefulOf
  split
  · next hover =>
      refine V.ret fun s'' ha' => ⟨ha.trans ha', x, h1, ha'.seen x h3, ?_⟩
      rw [if_pos hover]
  · next hfits =>
      refine V.ret fun s'' ha' => ⟨ha.trans ha', x, h1, ha'.seen x h3, ?_⟩
      rw [if_neg hfits]

/-- What a completed `read_at` means, in terms of the rings met: `x₁` decided
how much is copied, `x₂` what of it is useful. -/
inductive Outcome (sh : RingShared) (t₀ : Usize) (T₀ : Int) (output : List α)
    (r : List α × ReadResult) (s : σ) : Prop where
  | refused (x₁ : Traced α) (seen : V.Seen s x₁)
      (len : copyLen sh (wrapsub x₁.mem.readablePos t₀) output.length = none)
      (result : r = (output, ⟨0, 0⟩))
  | copied (x₁ x₂ : Traced α) (n : Nat) (seen₁ : V.Seen s x₁) (seen₂ : V.Seen s x₂)
      (len : copyLen sh (wrapsub x₁.mem.readablePos t₀) output.length = some n)
      (later : V.Later x₁ x₂) (length : r.1.length = output.length)
      (useful : r.2 = usefulOf sh (wrapsub x₂.mem.writingPos t₀) n)
      (item : ∀ i < n, ∃ x, V.Seen s x ∧ V.Later x₁ x ∧ V.Later x x₂ ∧
        r.1[i]? = some (x.cell sh (T₀ + i)))

theorem copyOut_reads (hown : sh.unconditionalRead = false) {n : Nat} {output : List α}
    (hvalid : ∀ x, V.Later (V.ring s) x → x.mem.valid = true)
    (hseen : V.Seen s x₁) (hsince : V.Later x₁ (V.ring s))
    (hlen : copyLen sh (wrapsub x₁.mem.readablePos (BitVec.ofInt 64 T₀)) output.length = some n) :
    V.Reads (copyOut sh (BitVec.ofInt 64 T₀) output n)
      (Outcome V sh (BitVec.ofInt 64 T₀) T₀ output) s := by
  have hn : n ≤ output.length ∧ n ≤ sh.itemsSize := by
    unfold copyLen at hlen
    split at hlen
    · cases hlen
    · injection hlen
      omega
  unfold copyOut
  refine V.lockBuffer hvalid fun s₁ ha₁ => ?_
  rw [if_pos rfl, Serial.ofInt_add_ofNat]
  refine V.bind_of (copy_reads V hn.1 hn.2 (ha₁.seen _ hseen)
    (V.later_trans hsince ha₁.later)) fun acc s₂ hc => ?_
  refine V.bind_of (usefulRange_reads V hown _ n) fun r s₃ hr => ?_
  obtain ⟨ha₃, x₂, hlater, hseen₂, hr⟩ := hr
  refine V.ret fun s₄ ha₄ => .copied x₁ x₂ n ((ha₃.trans ha₄).seen _ hc.first)
    (ha₄.seen _ hseen₂) hlen (V.later_trans hc.since hlater) hc.length hr fun i hi => ?_
  obtain ⟨x, hx, h1, h2, heq⟩ := hc.item i hi
  exact ⟨x, (ha₃.trans ha₄).seen _ hx, h1, V.later_trans h2 hlater, heq⟩

/-- The specification of `read_at`, whatever the other threads do. -/
theorem readAt_reads (hown : sh.unconditionalRead = false) (T₀ : Int) (output : List α)
    (hvalid : ∀ x, V.Later (V.ring s) x → x.mem.valid = true) :
    V.Reads (readAt sh (BitVec.ofInt 64 T₀) output) (Outcome V sh (BitVec.ofInt 64 T₀) T₀ output)
      s := by
  unfold readAt
  refine V.bind_of (outputLen_reads V hown _ _) fun o s₁ hs₁ => ?_
  obtain ⟨ha₁, x₁, hx₁, hs₁, hseen₁, rfl⟩ := hs₁
  cases hlen : copyLen sh (wrapsub x₁.mem.readablePos (BitVec.ofInt 64 T₀)) output.length with
  | none => exact V.ret fun s' ha => .refused x₁ (ha.seen _ hseen₁) hlen rfl
  | some n =>
      exact copyOut_reads V hown (fun x hx => hvalid x (V.later_trans ha₁.later hx)) hseen₁ hs₁ hlen

end RBOutput

end Inferno
