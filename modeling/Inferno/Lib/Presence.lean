import Mathlib.Data.List.Induction
import Mathlib.Data.List.Nodup

/-!
# Who is still there

A failure detector that counts rounds. It remembers what each peer said last and
for how many rounds it has been silent; a round ends with a sweep, which drops the
peers that were silent for `limit` rounds before it. Whoever asks is told when a
peer is found, says something new, or is lost.

What is remembered is told by the history alone: what the peer said last, if no
more than `limit` rounds ended since (`lookup_run`). For each peer, what is told is
a sound account of that (`told_run`).
-/

namespace Presence

/-- What is remembered of a peer. -/
structure Entry (K V : Type) where
  key : K
  value : V
  silent : Nat

inductive Happening (K V : Type) where
  | heard (key : K) (value : V)
  | sweep

inductive Told (K V : Type) where
  | found (key : K) (value : V)
  | updated (key : K) (old new : V)
  | lost (key : K) (value : V)

def Told.key {K V : Type} : Told K V → K
  | found k _ => k
  | updated k _ _ => k
  | lost k _ => k

variable {K V : Type}

def aged (limit : Nat) (e : Entry K V) : Option (Entry K V) :=
  if e.silent < limit then some { e with silent := e.silent + 1 } else none

theorem aged_key {limit : Nat} {e e' : Entry K V} (h : aged limit e = some e') : e'.key = e.key := by
  unfold aged at h
  split at h
  · cases h
    rfl
  · cases h

theorem keys_aged (limit : Nat) (m : List (Entry K V)) :
    ((m.filterMap (aged limit)).map Entry.key).Sublist (m.map Entry.key) := by
  induction m with
  | nil => exact List.Sublist.refl _
  | cons e m ih =>
      rw [List.filterMap_cons]
      split
      · exact ih.cons _
      next e' he =>
        rw [List.map_cons, List.map_cons, aged_key he]
        exact ih.cons_cons _

/-- An account of one peer: it is found, then updated from what it last said, then
lost with what it last said, and so on. -/
inductive Follows : Option V → List (Told K V) → Option V → Prop where
  | nil (s : Option V) : Follows s [] s
  | found (k : K) {v : V} {ts : List (Told K V)} {s : Option V} (h : Follows (some v) ts s) :
      Follows none (.found k v :: ts) s
  | updated (k : K) {old new : V} {ts : List (Told K V)} {s : Option V}
      (h : Follows (some new) ts s) : Follows (some old) (.updated k old new :: ts) s
  | lost (k : K) {v : V} {ts : List (Told K V)} {s : Option V} (h : Follows none ts s) :
      Follows (some v) (.lost k v :: ts) s

theorem Follows.append {s s' s'' : Option V} {ts ts' : List (Told K V)}
    (h : Follows s ts s') (h' : Follows s' ts' s'') : Follows s (ts ++ ts') s'' := by
  induction h with
  | nil => exact h'
  | found k _ ih => exact .found k (ih h')
  | updated k _ ih => exact .updated k (ih h')
  | lost k _ ih => exact .lost k (ih h')

variable [DecidableEq K]

def get (m : List (Entry K V)) (k : K) : Option (Entry K V) := m.find? (·.key = k)

def replace (m : List (Entry K V)) (k : K) (v : V) : List (Entry K V) :=
  ⟨k, v, 0⟩ :: m.filter (·.key ≠ k)

/-- One happening: what is remembered after it, and what is told. -/
def step (limit : Nat) (m : List (Entry K V)) : Happening K V → List (Entry K V) × List (Told K V)
  | .heard k v =>
      (replace m k v, match get m k with
        | some old => [.updated k old.value v]
        | none => [.found k v])
  | .sweep =>
      (m.filterMap (aged limit),
        (m.filter fun e => ¬ e.silent < limit).map fun e => .lost e.key e.value)

/-- Everything from the start, when nothing is remembered. -/
def run (limit : Nat) (hs : List (Happening K V)) : List (Entry K V) × List (Told K V) :=
  hs.foldl (fun s h => ((step limit s.1 h).1, s.2 ++ (step limit s.1 h).2)) ([], [])

theorem run_snoc (limit : Nat) (hs : List (Happening K V)) (h : Happening K V) :
    run limit (hs ++ [h]) = ((step limit (run limit hs).1 h).1,
      (run limit hs).2 ++ (step limit (run limit hs).1 h).2) := by
  rw [run, List.foldl_append]
  rfl

/-- What is known of a peer. -/
def lookup (m : List (Entry K V)) (k : K) : Option (V × Nat) :=
  (get m k).map fun e => (e.value, e.silent)

/-- What a peer said last, and how many rounds ended since. -/
def since (hs : List (Happening K V)) (k : K) : Option (V × Nat) :=
  hs.foldl (fun s h => match h with
    | .heard k' v => if k' = k then some (v, 0) else s
    | .sweep => s.map fun x => (x.1, x.2 + 1)) none

theorem since_snoc (hs : List (Happening K V)) (h : Happening K V) (k : K) :
    since (hs ++ [h]) k = match h with
      | .heard k' v => if k' = k then some (v, 0) else since hs k
      | .sweep => (since hs k).map fun x => (x.1, x.2 + 1) := by
  rw [since, List.foldl_append]
  rfl

/-! ## What is remembered -/

section

variable {m : List (Entry K V)} {limit : Nat}

theorem nodup_step (h : (m.map Entry.key).Nodup) (e : Happening K V) :
    ((step limit m e).1.map Entry.key).Nodup := by
  cases e with
  | heard k v =>
      refine List.nodup_cons.mpr ⟨fun hmem => ?_, (List.filter_sublist.map _).nodup h⟩
      obtain ⟨e, he, rfl⟩ := List.mem_map.mp hmem
      exact of_decide_eq_true (List.mem_filter.mp he).2 rfl
  | sweep => exact (keys_aged limit m).nodup h

theorem lookup_replace (k k' : K) (v : V) :
    lookup (replace m k v) k' = if k = k' then some (v, 0) else lookup m k' := by
  unfold lookup get replace
  rw [List.find?_cons]
  split
  next heq =>
    rw [if_pos (of_decide_eq_true heq)]
    rfl
  next hne =>
    have hne' : k ≠ k' := of_decide_eq_false hne
    rw [if_neg hne', List.find?_filter]
    congr 2
    funext e
    by_cases hk : e.key = k'
    · simp [hk, Ne.symm hne']
    · simp [hk]

/-- A peer is found in what is remembered only once. -/
theorem get_cons_of_nodup {e : Entry K V} (h : ((e :: m).map Entry.key).Nodup) {k : K}
    (hk : e.key = k) : get m k = none := by
  refine List.find?_eq_none.mpr fun e' he' heq => ?_
  rw [List.map_cons] at h
  refine (List.nodup_cons.mp h).1 (List.mem_map.mpr ⟨e', he', ?_⟩)
  rw [of_decide_eq_true heq, hk]

theorem get_cons (e : Entry K V) (m : List (Entry K V)) (k : K) :
    get (e :: m) k = if e.key = k then some e else get m k := by
  unfold get
  rw [List.find?_cons]
  by_cases hk : e.key = k <;> simp [hk]

theorem lookup_aged (h : (m.map Entry.key).Nodup) (k : K) :
    lookup (m.filterMap (aged limit)) k =
      ((lookup m k).map fun x => (x.1, x.2 + 1)).filter (·.2 ≤ limit) := by
  induction m with
  | nil => rfl
  | cons e m ih =>
      have ih := ih (List.nodup_cons.mp h).2
      unfold lookup at ih ⊢
      rw [get_cons, List.filterMap_cons]
      by_cases hk : e.key = k
      · rw [if_pos hk]
        rw [get_cons_of_nodup h hk] at ih
        unfold aged
        by_cases hlt : e.silent < limit
        · rw [if_pos hlt]
          dsimp only
          rw [get_cons, if_pos hk]
          simp only [Option.map_some, Option.filter_some, decide_eq_true_eq]
          rw [if_pos (Nat.succ_le_of_lt hlt)]
        · rw [if_neg hlt]
          dsimp only
          refine ih.trans ?_
          simp only [Option.map_some, Option.filter_some, decide_eq_true_eq]
          rw [if_neg (by omega)]
          rfl
      · rw [if_neg hk]
        split
        next => exact ih
        next e' he' =>
          rw [get_cons, aged_key he', if_neg hk]
          exact ih

theorem nodup_run (limit : Nat) (hs : List (Happening K V)) :
    ((run limit hs).1.map Entry.key).Nodup := by
  induction hs using List.reverseRecOn with
  | nil => exact List.nodup_nil
  | append_singleton hs h ih =>
      rw [run_snoc]
      exact nodup_step ih h

/-- A peer is remembered exactly if it spoke, and no more than `limit` rounds ended
since; with what it said. -/
theorem lookup_run (limit : Nat) (hs : List (Happening K V)) (k : K) :
    lookup (run limit hs).1 k = (since hs k).filter (·.2 ≤ limit) := by
  induction hs using List.reverseRecOn with
  | nil => rfl
  | append_singleton hs h ih =>
      rw [run_snoc, since_snoc]
      cases h with
      | heard k' v =>
          show lookup (replace _ k' v) k = _
          rw [lookup_replace, ih]
          dsimp only
          split
          · rw [Option.filter_some, if_pos (decide_eq_true (Nat.zero_le _))]
          · rfl
      | sweep =>
          show lookup ((run limit hs).1.filterMap (aged limit)) k = _
          rw [lookup_aged (nodup_run limit hs), ih]
          dsimp only
          -- who was dropped before stays dropped
          cases since hs k with
          | none => rfl
          | some x =>
              simp only [Option.map_some, Option.filter_some]
              by_cases hle : x.2 ≤ limit
              · rw [if_pos (decide_eq_true hle)]
                rfl
              · rw [if_neg (by simpa using hle), if_neg (by simp; omega)]
                rfl

end

/-! ## What is told -/

def about (k : K) (ts : List (Told K V)) : List (Told K V) := ts.filter (·.key = k)

theorem about_cons (k : K) (t : Told K V) (ts : List (Told K V)) :
    about k (t :: ts) = if t.key = k then t :: about k ts else about k ts := by
  unfold about
  rw [List.filter_cons]
  by_cases h : t.key = k <;> simp [h]

theorem about_append (k : K) (ts ts' : List (Told K V)) :
    about k (ts ++ ts') = about k ts ++ about k ts' := List.filter_append ..

section

variable {m : List (Entry K V)} {limit : Nat}

theorem about_lost (h : (m.map Entry.key).Nodup) (k : K) :
    about k ((m.filter fun e => ¬ e.silent < limit).map fun e => Told.lost e.key e.value) =
      match lookup m k with
      | some x => if x.2 < limit then [] else [.lost k x.1]
      | none => [] := by
  induction m with
  | nil => rfl
  | cons e m ih =>
      have ih := ih (List.nodup_cons.mp h).2
      unfold lookup at ih ⊢
      rw [get_cons, List.filter_cons]
      by_cases hk : e.key = k
      · rw [if_pos hk]
        rw [get_cons_of_nodup h hk] at ih
        dsimp only [Option.map_some, Option.map_none] at ih ⊢
        by_cases hlt : e.silent < limit
        · rw [if_neg (by simpa using hlt), if_pos hlt]
          exact ih
        · rw [if_pos (by simpa using hlt), if_neg hlt, List.map_cons, about_cons,
            if_pos (show (Told.lost e.key e.value).key = k from hk), ih, hk]
      · rw [if_neg hk, ← ih]
        split
        · rw [List.map_cons, about_cons, if_neg (by exact hk)]
        · rfl

theorem follows_step (h : (m.map Entry.key).Nodup) (e : Happening K V) (k : K) :
    Follows ((lookup m k).map Prod.fst) (about k (step limit m e).2)
      ((lookup (step limit m e).1 k).map Prod.fst) := by
  cases e with
  | heard k' v =>
      show Follows _ (about k (match get m k' with
        | some old => [Told.updated k' old.value v]
        | none => [Told.found k' v])) ((lookup (replace m k' v) k).map Prod.fst)
      rw [lookup_replace]
      by_cases hk : k' = k
      · subst hk
        rw [if_pos rfl]
        unfold lookup
        cases get m k' with
        | none =>
            rw [about_cons, if_pos (by rfl)]
            exact .found k' (.nil _)
        | some old =>
            rw [about_cons, if_pos (by rfl)]
            exact .updated k' (.nil _)
      · rw [if_neg hk]
        have hnone : about k (match get m k' with
            | some old => [Told.updated k' old.value v]
            | none => [Told.found k' v]) = [] := by
          split <;> rw [about_cons, if_neg (by exact hk)] <;> rfl
        rw [hnone]
        exact .nil _
  | sweep =>
      show Follows _ (about k ((m.filter fun e => ¬ e.silent < limit).map fun e =>
        Told.lost e.key e.value)) ((lookup (m.filterMap (aged limit)) k).map Prod.fst)
      rw [lookup_aged h, about_lost h]
      cases lookup m k with
      | none => exact .nil _
      | some x =>
          simp only [Option.map_some, Option.filter_some]
          by_cases hlt : x.2 < limit
          · rw [if_pos hlt, if_pos (decide_eq_true (Nat.succ_le_of_lt hlt))]
            exact .nil _
          · rw [if_neg hlt, if_neg (by simp; omega)]
            exact .lost k (.nil _)

/-- What is told of a peer is an account that ends with what is remembered of it. -/
theorem told_run (limit : Nat) (hs : List (Happening K V)) (k : K) :
    Follows none (about k (run limit hs).2) ((lookup (run limit hs).1 k).map Prod.fst) := by
  induction hs using List.reverseRecOn with
  | nil => exact .nil _
  | append_singleton hs h ih =>
      rw [run_snoc, about_append]
      exact ih.append (follows_step (nodup_run limit hs) h k)

end

end Presence
