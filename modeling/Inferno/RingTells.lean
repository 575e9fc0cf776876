import Inferno.RingLaw

/-!
# Where the samples of a ring come from

A property of samples and their times that everything written to a ring has, the whole
timeline of the ring has too: fitting calls keep it (`Tells.call`), also with the time
wrapped, and what was never written is silence (`Timeline.Tells.value`).
-/

namespace Inferno

variable {α : Type} [Inhabited α] {sh : RingShared} {P Q : Usize → α → Prop}

/-- Every sample of the timeline has the property, at its time. -/
def Timeline.Tells (P : Usize → α → Prop) (tl : Timeline α) : Prop :=
  ∀ t x, tl.sample t = some x → P (BitVec.ofInt 64 t) x

/-- The ring is steady, and stands for a timeline that tells `P` only. -/
def Tells (sh : RingShared) (P : Usize → α → Prop) (s : RingState α) : Prop :=
  ∃ R tl, RBInput.Steady sh s.1 R ⟨s.2, tl⟩ ∧ tl.Tells P

/-- What a call writes has the property. -/
def RingCall.Tells (P : Usize → α → Prop) : RingCall α → Prop
  | write ts xs => ∀ j x, xs[j]? = some x → P (ts + BitVec.ofNat 64 j) x
  | close _ => True

omit [Inhabited α] in
theorem Timeline.Tells.write {tl : Timeline α} (h : tl.Tells P) {ts : Usize} {xs : List α}
    (hxs : (RingCall.write ts xs).Tells P) : (tl.write ts xs).Tells P := by
  intro t x hx
  have hsample : (tl.write ts xs).sample t = (tl.putAll (tl.place ts) xs).sample t := rfl
  rw [hsample] at hx
  by_cases hin : tl.place ts ≤ t ∧ t < tl.place ts + xs.length
  · rw [Timeline.putAll_sample_of_mem hin.1 hin.2] at hx
    have hP := hxs _ x hx
    have htime : ts + BitVec.ofNat 64 (t - tl.place ts).toNat = BitVec.ofInt 64 t := by
      have hplace : BitVec.ofInt 64 (tl.place ts) = ts := Serial.ofInt_place _ _
      calc ts + BitVec.ofNat 64 (t - tl.place ts).toNat
          = BitVec.ofInt 64 (tl.place ts) + BitVec.ofNat 64 (t - tl.place ts).toNat := by
            rw [hplace]
        _ = BitVec.ofInt 64 (tl.place ts + (t - tl.place ts).toNat) := Serial.ofInt_add_ofNat _ _
        _ = BitVec.ofInt 64 t := by
            congr 1
            omega
    rw [htime] at hP
    exact hP
  · rw [Timeline.putAll_sample_of_not_mem hin] at hx
    exact h t x hx

omit [Inhabited α] in
theorem Timeline.Tells.effect {tl : Timeline α} (h : tl.Tells P) {c : RingCall α}
    (hc : c.Tells P) : (c.effect tl).Tells P := by
  cases c with
  | write ts xs => exact h.write hc
  | close u => exact h

theorem tells_newOwned {startTime holeFixWait : Usize} (hwait : holeFixWait.toNat ≤ 2 ^ 62) :
    Tells sh P (newOwned startTime holeFixWait : RingState α) :=
  ⟨_, .fresh startTime, steady_newOwned hwait, fun _ _ hx => by cases hx⟩

theorem Tells.mono {s : RingState α} (h : Tells sh P s) (hPQ : ∀ u x, P u x → Q u x) :
    Tells sh Q s := by
  obtain ⟨R, tl, hsteady, htl⟩ := h
  exact ⟨R, tl, hsteady, fun t x hx => hPQ _ _ (htl t x hx)⟩

/-- A fitting call keeps the property. -/
theorem Tells.call {s s' : RingState α} (h : Tells sh P s) {c : RingCall α} (hfits : c.Fits sh s)
    (hc : c.Tells P) (hrun : c.run sh s = some s') : Tells sh P s' := by
  obtain ⟨R, tl, hsteady, htl⟩ := h
  obtain ⟨inp, s₁, hexec, ⟨R₁, _, hsteady₁, _, htl₁⟩, _⟩ :=
    Prog.Wp.exec (fun _ => rfl) (RingCall.prog_runs hsteady hfits)
  have hrun₁ : c.run sh s = some (inp, s₁.mem) := by
    rw [RingCall.run, show s.2 = (⟨s.2, tl⟩ : Traced α).mem from rfl, exec_mem, hexec]
    rfl
  obtain rfl := Option.some.inj (hrun₁.symm.trans hrun)
  refine ⟨R₁, s₁.tl, hsteady₁, ?_⟩
  rw [htl₁]
  exact htl.effect hc

/-- What the timeline has for a time is told, or silence. -/
theorem Timeline.Tells.value {tl : Timeline α} (h : tl.Tells P) (hP : ∀ u, P u default)
    (t₀ : Usize) (i : Nat) : P (t₀ + BitVec.ofNat 64 i) (tl.value (tl.place t₀ + i)) := by
  have htime : BitVec.ofInt 64 (tl.place t₀ + i) = t₀ + BitVec.ofNat 64 i := by
    rw [← Serial.ofInt_add_ofNat]
    congr 1
    exact Serial.ofInt_place _ _
  rw [← htime]
  cases hs : tl.sample (tl.place t₀ + i) with
  | none =>
      rw [Timeline.value_of_none hs]
      exact hP _
  | some x =>
      rw [Timeline.value_of_some hs]
      exact h _ x hs

end Inferno
