import Mathlib.Algebra.Order.BigOperators.Group.List
import Mathlib.Algebra.Order.Ring.Nat
import Mathlib.Data.Nat.Init
import Mathlib.Tactic.Common

/-!
# Pages with a soft limit

A list of things of known size is served page by page. A page takes one after
the other until it has so many, or until one of them makes it reach the limit:
that one is on the page but does not count, and the next page begins with it.
A client goes through the pages (`walk`).

It comes to an end exactly when the list can be cut into such pages, each with
something that counts and none larger than there is room (`walk_iff_cuts`).
-/

/-- What holds for all pages. -/
structure Paging where
  /-- So many at most count on a page. -/
  space : Nat
  /-- The size of a page with nothing on it. -/
  base : Nat
  limit : Nat
  room : Nat

namespace Paging

variable (p : Paging)

/-- Fills a page from a size and a count on: whether there is more, and the size
and the count it ends with. -/
def fill : List Nat → Nat → Nat → Bool × Nat × Nat
  | [], size, count => (false, size, count)
  | c :: costs, size, count =>
      if count ≥ p.space then (true, size, count)
      else if size + c ≥ p.limit then (true, size + c, count)
      else fill costs (size + c) (count + 1)

/-- The client, with the counts of the pages it got. It stops at a page that is
too large. -/
def walk : Nat → List Nat → Option (List Nat)
  | 0, _ => none
  | fuel + 1, costs =>
      match p.fill costs p.base 0 with
      | (more, size, count) =>
          if size > p.room then none
          else if more then (walk fuel (costs.drop count)).map (count :: ·)
          else some [count]

/-- A list that can be cut into pages. A page that is not the last has all it can
have, or is closed by something that reaches the limit and still has room. -/
inductive Cuts : List Nat → Prop
  | last {costs : List Nat} : costs.length ≤ p.space → p.base + costs.sum < p.limit → Cuts costs
  | full {run rest : List Nat} : run.length = p.space → p.base + run.sum < p.limit → rest ≠ [] →
      Cuts rest → Cuts (run ++ rest)
  | crossing {run rest : List Nat} {c : Nat} : run ≠ [] → run.length < p.space →
      p.base + run.sum < p.limit → p.limit ≤ p.base + run.sum + c →
      p.base + run.sum + c ≤ p.room → Cuts (c :: rest) → Cuts (run ++ c :: rest)

variable {p}

/-! ## A page -/

theorem fill_append {run : List Nat} (rest : List Nat) {size count : Nat}
    (hlimit : size + run.sum < p.limit) (hspace : count + run.length ≤ p.space) :
    p.fill (run ++ rest) size count = p.fill rest (size + run.sum) (count + run.length) := by
  induction run generalizing size count with
  | nil => rfl
  | cons c run ih =>
      rw [List.sum_cons] at hlimit
      rw [List.length_cons] at hspace
      rw [List.cons_append, fill, if_neg (by omega), if_neg (by omega),
        ih (by omega) (by omega), List.sum_cons, List.length_cons, Nat.add_assoc,
        Nat.add_assoc, Nat.add_comm 1]

theorem le_fill {costs : List Nat} {size count size' count' : Nat} {more : Bool}
    (h : p.fill costs size count = (more, size', count')) : size ≤ size' := by
  induction costs generalizing size count with
  | nil =>
      cases h
      exact Nat.le_refl _
  | cons c costs ih =>
      rw [fill] at h
      split at h
      · cases h
        exact Nat.le_refl _
      split at h
      · cases h
        exact Nat.le_add_right _ _
      · exact (Nat.le_add_right _ _).trans (ih h)

/-- What is on a page, and why it was closed. -/
inductive Filled (p : Paging) (size count : Nat) : List Nat → Bool × Nat × Nat → Prop
  | last {costs : List Nat} : size + costs.sum < p.limit → count + costs.length ≤ p.space →
      Filled p size count costs (false, size + costs.sum, count + costs.length)
  | full {run rest : List Nat} : size + run.sum < p.limit → count + run.length = p.space →
      rest ≠ [] → Filled p size count (run ++ rest) (true, size + run.sum, count + run.length)
  | crossing {run rest : List Nat} {c : Nat} : size + run.sum < p.limit →
      count + run.length < p.space → p.limit ≤ size + run.sum + c →
      Filled p size count (run ++ c :: rest) (true, size + run.sum + c, count + run.length)

theorem filled (costs : List Nat) {size count : Nat} (hlimit : size < p.limit)
    (hspace : count ≤ p.space) : Filled p size count costs (p.fill costs size count) := by
  induction costs generalizing size count with
  | nil => exact .last hlimit hspace
  | cons c costs ih =>
      rw [fill]
      split
      next hfull =>
        exact @Filled.full p size count [] (c :: costs) hlimit (Nat.le_antisymm hspace hfull)
          (List.cons_ne_nil _ _)
      next hmore =>
      split
      next hcross =>
        exact @Filled.crossing p size count [] costs c hlimit (Nat.not_le.mp hmore) hcross
      next hfits =>
      have hrest := @ih (size + c) (count + 1) (Nat.not_le.mp hfits)
        (Nat.not_le.mp hmore)
      generalize p.fill costs (size + c) (count + 1) = result at hrest
      -- the first one in front of what the page takes after it
      cases hrest with
      | last h h' =>
          have := @Filled.last p size count (c :: costs) (by rw [List.sum_cons]; omega)
            (by rw [List.length_cons]; omega)
          rwa [List.sum_cons, List.length_cons, ← Nat.add_assoc, Nat.add_comm costs.length,
            ← Nat.add_assoc] at this
      | @full run rest h h' hne =>
          have := @Filled.full p size count (c :: run) rest (by rw [List.sum_cons]; omega)
            (by rw [List.length_cons]; omega) hne
          rwa [List.sum_cons, List.length_cons, ← Nat.add_assoc, Nat.add_comm run.length,
            ← Nat.add_assoc] at this
      | @crossing run rest c' h h' hc =>
          have := @Filled.crossing p size count (c :: run) rest c' (by rw [List.sum_cons]; omega)
            (by rw [List.length_cons]; omega) (by rw [List.sum_cons]; omega)
          rwa [List.sum_cons, List.length_cons, ← Nat.add_assoc, Nat.add_comm run.length,
            ← Nat.add_assoc] at this

/-- All that is left counts on a page that is the last; on another not all does. -/
theorem count_fill {costs : List Nat} {size size' count : Nat} {more : Bool}
    (hlimit : size < p.limit) (h : p.fill costs size 0 = (more, size', count)) :
    if more then count < costs.length else count = costs.length := by
  have hfilled := @filled p costs size 0 hlimit (Nat.zero_le _)
  rw [h] at hfilled
  cases hfilled with
  | last _ _ => exact Nat.zero_add _
  | @full run rest _ _ hne =>
      have hrest := List.length_pos_iff.mpr hne
      rw [if_pos rfl, List.length_append]
      omega
  | @crossing run rest c _ _ _ =>
      rw [if_pos rfl, List.length_append, List.length_cons]
      omega

/-! ## All pages -/

theorem walk_of_cuts (hroom : p.limit ≤ p.room) {costs : List Nat} (h : p.Cuts costs) :
    ∃ fuel counts, p.walk fuel costs = some counts := by
  induction h with
  | @last costs hspace hlimit =>
      have hfill := @fill_append p costs [] p.base 0 hlimit (by omega)
      rw [List.append_nil, fill] at hfill
      exact ⟨1, [0 + costs.length], by
        rw [walk, hfill]
        dsimp only
        rw [if_neg (by omega), if_neg Bool.false_ne_true]⟩
  | @full run rest hspace hlimit hne _ ih =>
      obtain ⟨fuel, counts, hwalk⟩ := ih
      have hfill := @fill_append p run rest p.base 0 hlimit (by omega)
      obtain ⟨c, rest, rfl⟩ := List.exists_cons_of_ne_nil hne
      rw [fill, if_pos (by omega)] at hfill
      rw [Nat.zero_add] at hfill
      refine ⟨fuel + 1, run.length :: counts, ?_⟩
      rw [walk, hfill]
      dsimp only
      rw [if_neg (by omega), if_pos rfl, List.drop_left, hwalk]
      rfl
  | @crossing run rest c hne hspace hlimit hcross hfits _ ih =>
      obtain ⟨fuel, counts, hwalk⟩ := ih
      have hfill := @fill_append p run (c :: rest) p.base 0 hlimit (by omega)
      rw [fill, if_neg (by omega), if_pos hcross] at hfill
      rw [Nat.zero_add] at hfill
      refine ⟨fuel + 1, run.length :: counts, ?_⟩
      rw [walk, hfill]
      dsimp only
      rw [if_neg (by omega), if_pos rfl, List.drop_left, hwalk]
      rfl

/-- A page on which nothing counts comes again and again. -/
theorem walk_stuck {costs : List Nat} {size : Nat}
    (h : p.fill costs p.base 0 = (true, size, 0)) (fuel : Nat) : p.walk fuel costs = none := by
  induction fuel with
  | zero => rfl
  | succ fuel ih =>
      rw [walk, h]
      dsimp only
      split
      · rfl
      · rw [if_pos rfl, List.drop_zero, ih]
        rfl

theorem cuts_of_walk (hbase : p.base < p.limit) {fuel : Nat} {costs counts : List Nat}
    (h : p.walk fuel costs = some counts) : p.Cuts costs := by
  induction fuel generalizing costs counts with
  | zero => cases h
  | succ fuel ih =>
      have hstuck := @walk_stuck p costs
      have hfilled := @filled p costs p.base 0 hbase (Nat.zero_le _)
      rw [walk] at h
      generalize hresult : p.fill costs p.base 0 = result at h hfilled hstuck
      cases hfilled with
      | last hlimit hspace => exact .last (by omega) hlimit
      | @full run rest hlimit hspace hne =>
          dsimp only at h
          split at h
          · cases h
          rw [if_pos rfl, Nat.zero_add, List.drop_left] at h
          obtain ⟨counts', hrest, _⟩ := Option.map_eq_some_iff.mp h
          exact .full (by omega) hlimit hne (ih hrest)
      | @crossing run rest c hlimit hspace hcross =>
          have hwalk := h
          dsimp only at h
          split at h
          · cases h
          rw [if_pos rfl, Nat.zero_add, List.drop_left] at h
          obtain ⟨counts', hrest, _⟩ := Option.map_eq_some_iff.mp h
          refine .crossing ?_ (by omega) hlimit hcross (by omega) (ih hrest)
          -- a page that its first thing closes is followed by itself
          rintro rfl
          have hnone := hstuck rfl (fuel + 1)
          rw [walk, hresult, hwalk] at hnone
          cases hnone

theorem walk_iff_cuts (hbase : p.base < p.limit) (hroom : p.limit ≤ p.room) (costs : List Nat) :
    (∃ fuel counts, p.walk fuel costs = some counts) ↔ p.Cuts costs :=
  ⟨fun ⟨_, _, h⟩ => cuts_of_walk hbase h, walk_of_cuts hroom⟩

/-! ## Simpler conditions -/

/-- Whatever is on a page counts at last, so it has to fit there alone. -/
theorem Cuts.single {costs : List Nat} (h : p.Cuts costs) {c : Nat} (hc : c ∈ costs) :
    p.base + c < p.limit := by
  induction h with
  | last _ hlimit =>
      have := List.le_sum_of_mem hc
      omega
  | @full run rest _ hlimit _ _ ih =>
      rcases List.mem_append.mp hc with hc | hc
      · have := List.le_sum_of_mem hc
        omega
      · exact ih hc
  | @crossing run rest c' _ _ hlimit _ _ _ ih =>
      rcases List.mem_append.mp hc with hc | hc
      · have := List.le_sum_of_mem hc
        omega
      · exact ih hc

/-- What fits on a page alone and is no larger than the room behind the limit is
no trouble. -/
theorem Cuts.of_small {costs : List Nat} (hpos : costs ≠ [] → 0 < p.space)
    (hbase : p.base < p.limit)
    (hcosts : ∀ c ∈ costs, p.base + c < p.limit ∧ p.limit + c ≤ p.room + 1) :
    p.Cuts costs := by
  induction hlen : costs.length using Nat.strongRec generalizing costs with
  | _ n ih =>
      subst hlen
      have hfilled := @filled p costs p.base 0 hbase (Nat.zero_le _)
      generalize p.fill costs p.base 0 = result at hfilled
      cases hfilled with
      | last hlimit hspace => exact .last (by omega) hlimit
      | @full run rest hlimit hspace hne =>
          have hspace' := hpos (List.append_ne_nil_of_right_ne_nil _ hne)
          refine .full (by omega) hlimit hne (ih rest.length ?_ (fun _ => hspace')
            (fun c hc => hcosts c (List.mem_append_right _ hc)) rfl)
          rw [List.length_append]
          omega
      | @crossing run rest c hlimit hspace hcross =>
          obtain ⟨hone, hfits⟩ := hcosts c (List.mem_append_right _ List.mem_cons_self)
          have hne : run ≠ [] := by
            rintro rfl
            rw [List.sum_nil] at hcross
            omega
          have hrun := List.length_pos_iff.mpr hne
          refine .crossing hne (by omega) hlimit hcross (by omega) (ih (c :: rest).length ?_
            (fun _ => by omega) (fun c' hc => hcosts c' (List.mem_append_right _ hc)) rfl)
          rw [List.length_append]
          omega

end Paging
