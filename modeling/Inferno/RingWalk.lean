import Inferno.RingBuffer

/-!
# What `for_in_ring` visits

`for_in_ring` walks the slots of the half-open range of times it is given,
but it sees only the two wrapped ends: a range of a whole number of laps is
one lap, and a range of more than a lap is its remainder. `visits N len` is
the number of slots a range of length `len` visits, and the `j`-th of them is
the slot of `start + j` (`forInRing_ofInt`).

A walk over more than a lap therefore misses slots. `Covers N len need` says
that the last `need` times of the range (or all of them) have their slots
visited; `covers_of_le` is the ordinary case of a range within a lap.
-/

namespace Inferno

open Serial

/-! ## The number of slots visited -/

/-- How many slots `for_in_ring` visits for a range of `len` times. -/
def visits (N : Nat) (len : Int) : Nat :=
  if len = 0 then 0 else if len % N = 0 then N else (len % N).toNat

theorem visits_le_lap {N : Nat} (hN : 0 < N) (len : Int) : visits N len ≤ N := by
  have := Int.emod_lt_of_pos len (b := N) (by omega)
  unfold visits
  split
  · omega
  · split <;> omega

theorem visits_le {N : Nat} (hN : 0 < N) {len : Int} (h : 0 ≤ len) : visits N len ≤ len := by
  have hdiv := Int.emod_add_mul_ediv len N
  have h0 := Int.emod_nonneg len (b := N) (by omega)
  have hq : 0 ≤ len / N := Int.ediv_nonneg h (by omega)
  have hprod : 0 ≤ (N : Int) * (len / N) := Int.mul_nonneg (by omega) hq
  unfold visits
  split
  · omega
  · split
    · next hne hzero =>
        by_contra hlt
        have hsmall : len % N = len := Int.emod_eq_of_lt h (by omega)
        omega
    · omega

theorem visits_of_le {N : Nat} {len : Int} (h : 0 ≤ len) (hle : len ≤ N) :
    (visits N len : Int) = len := by
  unfold visits
  split
  · omega
  · split
    · next hne hzero =>
        by_contra hneq
        have hsmall : len % N = len := Int.emod_eq_of_lt h (by omega)
        omega
    · next hne hzero =>
        have hlt : len < N := by
          rcases Int.lt_or_eq_of_le hle with hlt | rfl
          · exact hlt
          · simp at hzero
        rw [Int.emod_eq_of_lt h hlt]
        omega

/-- A range loses a whole number of laps. -/
theorem visits_lap {N : Nat} (hN : 0 < N) {len : Int} (h : 0 < len) :
    ∃ k : Int, len = visits N len + N * k := by
  have hdiv := Int.emod_add_mul_ediv len N
  have h0 := Int.emod_nonneg len (b := N) (by omega)
  unfold visits
  split
  · omega
  · split
    · exact ⟨len / N - 1, by rw [Int.mul_sub]; omega⟩
    · exact ⟨len / N, by omega⟩

theorem visits_pos {N : Nat} (hN : 0 < N) {len : Int} (h : 0 < len) : 0 < visits N len := by
  have := Int.emod_nonneg len (b := N) (by omega)
  unfold visits
  split
  · omega
  · split <;> omega

/-! ## Coverage -/

/-- The last `need` times of a range of `len` times, or all of them, have
their slots visited. -/
def Covers (N : Nat) (len need : Int) : Prop := min len need ≤ visits N len

instance (N : Nat) (len need : Int) : Decidable (Covers N len need) :=
  inferInstanceAs (Decidable (_ ≤ _))

theorem covers_of_le {N : Nat} {len need : Int} (h : 0 ≤ len) (hle : len ≤ N) :
    Covers N len need := by
  rw [Covers, visits_of_le h hle]
  exact min_le_left _ _

/-- Every covered time of the range `[a, a + len)` has a visited slot. -/
theorem Covers.visited {N : Nat} (hN : 0 < N) {a len need t : Int} (h : Covers N len need)
    (hlo : a ≤ t) (hhi : t < a + len) (hneed : a + len - need ≤ t) :
    ∃ j < visits N len, slot N (a + (j : Nat)) = slot N t := by
  have hle : (visits N len : Int) ≤ len := visits_le hN (by omega)
  by_cases hall : t - a < visits N len
  · exact ⟨(t - a).toNat, by omega, by congr 1; omega⟩
  · obtain ⟨k, hk⟩ := visits_lap hN (show 0 < len by omega)
    have hmin : need ≤ visits N len := by
      rw [Covers] at h
      omega
    refine ⟨(t - a - (len - visits N len)).toNat, by omega, ?_⟩
    have hback : a + ((t - a - (len - visits N len)).toNat : Int) = t + N * -k := by
      rw [Int.toNat_of_nonneg (by omega), Int.mul_neg]
      omega
    rw [hback, slot_add_mul]

/-! ## The visited slots -/

theorem slot_add_nat {N : Nat} (hN : 0 < N) (a : Int) (j : Nat) :
    slot N (a + j) = (slot N a + j) % N := by
  have h0 := Int.emod_nonneg a (b := N) (by omega)
  apply Int.ofNat_inj.mp
  rw [slot, slot, Int.toNat_of_nonneg (Int.emod_nonneg _ (by omega)), Int.natCast_mod,
    Int.natCast_add, Int.toNat_of_nonneg h0, Int.emod_add_emod]

/-- Within a lap the next slots are counted up from `slot N a` and wrap once. -/
theorem slot_add_wrap {N : Nat} (hN : 0 < N) (a : Int) {j : Nat} (hj : j < N) :
    slot N (a + j) = if slot N a + j < N then slot N a + j else slot N a + j - N := by
  have hlt := slot_lt hN a
  rw [slot_add_nat hN]
  split
  · next h => exact Nat.mod_eq_of_lt h
  · next h => rw [Nat.mod_eq_sub_mod (by omega), Nat.mod_eq_of_lt (by omega)]

/-- The end of a walk of a whole number of laps is the slot it starts from;
otherwise it is `visits` slots on. -/
theorem slot_end {N : Nat} (hN : 0 < N) (a : Int) {len : Int} (h : 0 < len) :
    slot N (a + len) = if visits N len = N then slot N a else slot N (a + visits N len) := by
  obtain ⟨k, hk⟩ := visits_lap hN h
  have hlap : a + len = a + visits N len + N * k := by omega
  rw [hlap, slot_add_mul]
  split
  · next hfull =>
      rw [hfull]
      have := slot_add_mul N a 1
      rwa [Int.mul_one] at this
  · rfl

/-- `for_in_ring` visits the slots of the first `visits` times of its range,
in order. -/
theorem forInRing_ofInt {N k : Nat} (hpow : N = 2 ^ k) (hk : k ≤ 64) (a : Int) {len : Int}
    (h0 : 0 ≤ len) (hlt : len < 2 ^ 64) :
    forInRing N (BitVec.ofInt 64 a) (BitVec.ofInt 64 (a + len)) =
      (List.range (visits N len)).map fun j => slot N (a + (j : Nat)) := by
  have hN : 0 < N := hpow ▸ Nat.two_pow_pos k
  have hmask : ∀ t : Int, (BitVec.ofInt 64 t).toNat &&& (N - 1) = slot N t := fun t => by
    rw [hpow]; exact mask_ofInt hk t
  rcases Int.lt_or_eq_of_le h0 with hpos | rfl
  · have hne : BitVec.ofInt 64 a ≠ BitVec.ofInt 64 (a + len) := by
      intro heq
      have hsub := congrArg BitVec.toNat (ofInt_sub (w := 64) (a + len) a)
      rw [← heq, BitVec.sub_self, BitVec.toNat_ofInt] at hsub
      have hlen : (a + len - a) % ((2 ^ 64 : Nat) : Int) = len := by
        rw [show a + len - a = len by omega]
        exact Int.emod_eq_of_lt h0 (by simpa using hlt)
      rw [hlen] at hsub
      simp at hsub
      omega
    have hvle := visits_le_lap hN len
    have hvpos := visits_pos hN hpos
    have hend := slot_end hN a hpos
    have hslot := slot_lt hN a
    have hwrap := fun (j : Nat) (hj : j < visits N len) =>
      slot_add_wrap hN a (j := j) (by omega)
    simp only [forInRing, hne, if_false, hmask]
    rw [hend]
    by_cases hfull : visits N len = N
    · rw [if_pos hfull, if_neg (Nat.lt_irrefl _)]
      apply List.ext_getElem
      · simp; omega
      · intro j h1 h2
        have hj : j < visits N len := by simpa using h2
        rw [List.getElem_map, List.getElem_range, hwrap j hj, List.getElem_append]
        simp only [List.length_range', List.getElem_range', List.getElem_range]
        split <;> split <;> omega
    · rw [if_neg hfull, slot_add_wrap hN a (by omega)]
      by_cases hfit : slot N a + visits N len < N
      · rw [if_pos hfit, if_pos (by omega)]
        apply List.ext_getElem
        · simp
        · intro j h1 h2
          have hj : j < visits N len := by simpa using h2
          rw [List.getElem_map, List.getElem_range, hwrap j hj, List.getElem_range']
          rw [if_pos (by omega)]
          omega
      · rw [if_neg hfit, if_neg (by omega)]
        apply List.ext_getElem
        · simp; omega
        · intro j h1 h2
          have hj : j < visits N len := by simpa using h2
          rw [List.getElem_map, List.getElem_range, hwrap j hj, List.getElem_append]
          simp only [List.length_range', List.getElem_range', List.getElem_range]
          split <;> split <;> omega
  · simp [forInRing, visits]

end Inferno
