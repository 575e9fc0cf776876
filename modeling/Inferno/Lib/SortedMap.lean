import Mathlib.Order.Lattice

/-!
# Maps in key order

A finite map whose entries are iterated in the order of the keys: a list of
entries with strictly increasing keys. The order is a field, so every
operation returns a map in order again.
-/

/-- Entries with strictly increasing keys. -/
structure SortedMap (κ ν : Type) [LinearOrder κ] where
  entries : List (κ × ν)
  sorted : entries.Pairwise fun a b => a.1 < b.1

namespace SortedMap

variable {κ ν μ : Type} [LinearOrder κ]

def empty : SortedMap κ ν := ⟨[], .nil⟩

instance : Inhabited (SortedMap κ ν) := ⟨empty⟩

def isEmpty (m : SortedMap κ ν) : Bool := m.entries.isEmpty

def get? (m : SortedMap κ ν) (k : κ) : Option ν := (m.entries.find? fun e => e.1 = k).map Prod.snd

theorem mem_of_get? {m : SortedMap κ ν} {k : κ} {v : ν} (h : m.get? k = some v) :
    (k, v) ∈ m.entries := by
  obtain ⟨e, he, rfl⟩ := Option.map_eq_some_iff.mp h
  have hk := @List.find?_some _ (fun e : κ × ν => decide (e.1 = k)) _ _ he
  rw [← of_decide_eq_true hk]
  exact List.mem_of_find?_eq_some he

/-- A key has one entry. -/
theorem find?_key {k : κ} {v : ν} {l : List (κ × ν)} (h : l.Pairwise fun a b => a.1 < b.1)
    (hmem : (k, v) ∈ l) : (l.find? fun e => e.1 = k) = some (k, v) := by
  induction l with
  | nil => cases hmem
  | cons hd rest ih =>
      obtain ⟨hlt, hrest⟩ := List.pairwise_cons.mp h
      rcases List.mem_cons.mp hmem with rfl | hmem
      · exact List.find?_cons_of_pos (by simp)
      · have hne : hd.1 ≠ k := ne_of_lt (hlt _ hmem)
        rw [List.find?_cons_of_neg (by simpa using hne)]
        exact ih hrest hmem

theorem get?_of_mem {m : SortedMap κ ν} {k : κ} {v : ν} (h : (k, v) ∈ m.entries) :
    m.get? k = some v := by
  rw [get?, find?_key m.sorted h]
  rfl

theorem keys_nodup (m : SortedMap κ ν) : (m.entries.map Prod.fst).Nodup := by
  rw [List.nodup_iff_pairwise_ne, List.pairwise_map]
  exact m.sorted.imp fun h => ne_of_lt h

/-! ## One key -/

/-- Puts `f` of what is at `k` there. -/
def alterList (k : κ) (f : Option ν → ν) : List (κ × ν) → List (κ × ν)
  | [] => [(k, f none)]
  | (k', v) :: rest =>
      if k < k' then (k, f none) :: (k', v) :: rest
      else if k = k' then (k, f (some v)) :: rest
      else (k', v) :: alterList k f rest

theorem mem_alterList {k : κ} {f : Option ν → ν} {l : List (κ × ν)} {e : κ × ν}
    (h : e ∈ alterList k f l) :
    e ∈ l ∨ e = (k, f none) ∨ ∃ v, (k, v) ∈ l ∧ e = (k, f (some v)) := by
  induction l with
  | nil => exact .inr (.inl (List.mem_singleton.mp h))
  | cons hd rest ih =>
      obtain ⟨k', v⟩ := hd
      rw [alterList] at h
      split at h
      · rcases List.mem_cons.mp h with rfl | h
        · exact .inr (.inl rfl)
        · exact .inl h
      split at h
      · next heq =>
          rcases List.mem_cons.mp h with rfl | h
          · exact .inr (.inr ⟨v, heq ▸ List.mem_cons_self, rfl⟩)
          · exact .inl (List.mem_cons_of_mem _ h)
      · rcases List.mem_cons.mp h with rfl | h
        · exact .inl List.mem_cons_self
        rcases ih h with h | h | ⟨v', hv, h⟩
        · exact .inl (List.mem_cons_of_mem _ h)
        · exact .inr (.inl h)
        · exact .inr (.inr ⟨v', List.mem_cons_of_mem _ hv, h⟩)

theorem alterList_sorted (k : κ) (f : Option ν → ν) {l : List (κ × ν)}
    (h : l.Pairwise fun a b => a.1 < b.1) : (alterList k f l).Pairwise fun a b => a.1 < b.1 := by
  induction l with
  | nil => exact List.pairwise_singleton _ _
  | cons hd rest ih =>
      obtain ⟨k', v⟩ := hd
      obtain ⟨hlt, hrest⟩ := List.pairwise_cons.mp h
      rw [alterList]
      split
      · next hk =>
          refine h.cons fun e he => ?_
          rcases List.mem_cons.mp he with rfl | he
          · exact hk
          · exact lt_trans hk (hlt e he)
      split
      · next heq =>
          subst heq
          exact hrest.cons hlt
      · next hle hne =>
          refine (ih hrest).cons fun e he => ?_
          have hk : k' < k := lt_of_le_of_ne (not_lt.mp hle) (Ne.symm hne)
          rcases mem_alterList he with he | rfl | ⟨_, _, rfl⟩
          · exact hlt e he
          · exact hk
          · exact hk

/-- Where `k` stands, or would. -/
theorem alterList_split (k : κ) (f : Option ν → ν) {l : List (κ × ν)}
    (h : l.Pairwise fun a b => a.1 < b.1) :
    ∃ l₁ l₂, l = l₁ ++ (((l.find? fun e => e.1 = k).map Prod.snd).map (k, ·)).toList ++ l₂ ∧
      alterList k f l = l₁ ++ (k, f ((l.find? fun e => e.1 = k).map Prod.snd)) :: l₂ := by
  induction l with
  | nil => exact ⟨[], [], rfl, rfl⟩
  | cons hd rest ih =>
      obtain ⟨k', v⟩ := hd
      obtain ⟨hlt, hrest⟩ := List.pairwise_cons.mp h
      rw [alterList]
      split
      · next hk =>
          have hnone : ((k', v) :: rest).find? (fun e => e.1 = k) = none := by
            refine List.find?_eq_none.mpr fun e he => ?_
            rcases List.mem_cons.mp he with rfl | he
            · simpa using ne_of_gt hk
            · simpa using ne_of_gt (lt_trans hk (hlt e he))
          rw [hnone]
          exact ⟨[], (k', v) :: rest, rfl, rfl⟩
      split
      · next heq =>
          subst heq
          rw [List.find?_cons_of_pos (by simp)]
          exact ⟨[], rest, rfl, rfl⟩
      · next hne =>
          rw [List.find?_cons_of_neg (by simpa using Ne.symm hne)]
          obtain ⟨l₁, l₂, hl, halter⟩ := ih hrest
          refine ⟨(k', v) :: l₁, l₂, ?_, ?_⟩
          · rw [List.cons_append, List.cons_append, ← hl]
          · rw [halter, List.cons_append]

/-- The entry at `k`, changed or made. -/
def alter (m : SortedMap κ ν) (k : κ) (f : Option ν → ν) : SortedMap κ ν :=
  ⟨alterList k f m.entries, alterList_sorted k f m.sorted⟩

theorem alter_split (m : SortedMap κ ν) (k : κ) (f : Option ν → ν) :
    ∃ l₁ l₂, m.entries = l₁ ++ ((m.get? k).map (k, ·)).toList ++ l₂ ∧
      (m.alter k f).entries = l₁ ++ (k, f (m.get? k)) :: l₂ :=
  alterList_split k f m.sorted

theorem get?_alter_of_ne {m : SortedMap κ ν} {k k' : κ} (h : k' ≠ k) (f : Option ν → ν) :
    (m.alter k f).get? k' = m.get? k' := by
  obtain ⟨l₁, l₂, hm, halter⟩ := m.alter_split k f
  have hmid : (((m.get? k).map (k, ·)).toList).find? (fun e => e.1 = k') = none := by
    refine List.find?_eq_none.mpr fun e he => ?_
    obtain ⟨v, _, rfl⟩ := Option.map_eq_some_iff.mp (Option.mem_toList.mp he)
    simpa using Ne.symm h
  rw [get?, halter, List.find?_append, List.find?_cons_of_neg (by simpa using Ne.symm h)]
  rw [get?, hm, List.find?_append, List.find?_append, hmid, Option.or_none]

theorem get?_alter_self (m : SortedMap κ ν) (k : κ) (f : Option ν → ν) :
    (m.alter k f).get? k = some (f (m.get? k)) := by
  obtain ⟨l₁, l₂, _, halter⟩ := m.alter_split k f
  refine get?_of_mem ?_
  rw [halter]
  exact List.mem_append_right _ List.mem_cons_self

/-- A change that appends to what an entry stands for. -/
theorem alter_flatMap {β : Type} (m : SortedMap κ ν) (k : κ) {f : Option ν → ν}
    {g : κ × ν → List β} {x : List β} (hnone : g (k, f none) = x)
    (hsome : ∀ v, g (k, f (some v)) = g (k, v) ++ x) :
    ((m.alter k f).entries.flatMap g).Perm (m.entries.flatMap g ++ x) := by
  obtain ⟨l₁, l₂, hm, halter⟩ := m.alter_split k f
  have hmid : g (k, f (m.get? k)) = ((m.get? k).map (k, ·)).toList.flatMap g ++ x := by
    cases m.get? k with
    | none => rw [hnone, Option.map_none, Option.toList_none, List.flatMap_nil, List.nil_append]
    | some v => rw [hsome v, Option.map_some, Option.toList_some, List.flatMap_singleton]
  rw [hm, halter, List.flatMap_append, List.flatMap_cons, hmid, List.flatMap_append,
    List.flatMap_append]
  simp only [List.append_assoc]
  exact (List.perm_append_comm.append_left _).append_left _

def insert (m : SortedMap κ ν) (k : κ) (v : ν) : SortedMap κ ν := m.alter k fun _ => v

/-- What stands for the other entries when one is replaced, or made. -/
theorem insert_flatMap {β : Type} (m : SortedMap κ ν) (k : κ) (v : ν) (g : κ × ν → List β) :
    ∃ rest, (m.entries.flatMap g).Perm (rest ++ ((m.get? k).toList.flatMap fun v => g (k, v))) ∧
      ((m.insert k v).entries.flatMap g).Perm (rest ++ g (k, v)) := by
  obtain ⟨l₁, l₂, hm, halter⟩ := m.alter_split k fun _ => v
  have hmid : ((m.get? k).map (k, ·)).toList.flatMap g =
      (m.get? k).toList.flatMap fun v => g (k, v) := by
    cases m.get? k <;> simp
  refine ⟨l₁.flatMap g ++ l₂.flatMap g, ?_, ?_⟩
  · rw [hm, List.flatMap_append, List.flatMap_append, hmid, List.append_assoc, List.append_assoc]
    exact List.perm_append_comm.append_left _
  · rw [insert, halter, List.flatMap_append, List.flatMap_cons, List.append_assoc]
    exact List.perm_append_comm.append_left _

theorem mem_insert {m : SortedMap κ ν} {k : κ} {v : ν} {e : κ × ν}
    (h : e ∈ (m.insert k v).entries) : e ∈ m.entries ∨ e = (k, v) := by
  rcases mem_alterList h with h | h | ⟨_, _, h⟩
  · exact .inl h
  · exact .inr h
  · exact .inr h

theorem get?_insert_self (m : SortedMap κ ν) (k : κ) (v : ν) : (m.insert k v).get? k = some v :=
  m.get?_alter_self k _

theorem get?_insert_of_ne {m : SortedMap κ ν} {k k' : κ} (h : k' ≠ k) (v : ν) :
    (m.insert k v).get? k' = m.get? k' :=
  get?_alter_of_ne h _

/-! ## Many entries -/

def insertAll (m : SortedMap κ ν) (entries : List (κ × ν)) : SortedMap κ ν :=
  entries.foldl (fun m e => m.insert e.1 e.2) m

theorem mem_insertAll {m : SortedMap κ ν} {entries : List (κ × ν)} {e : κ × ν}
    (h : e ∈ (m.insertAll entries).entries) : e ∈ m.entries ∨ e ∈ entries := by
  induction entries generalizing m with
  | nil => exact .inl h
  | cons hd rest ih =>
      rcases ih h with h | h
      · rcases mem_insert h with h | rfl
        · exact .inl h
        · exact .inr List.mem_cons_self
      · exact .inr (List.mem_cons_of_mem _ h)

theorem get?_insertAll_of_not_mem {m : SortedMap κ ν} {entries : List (κ × ν)} {k : κ}
    (h : k ∉ entries.map Prod.fst) : (m.insertAll entries).get? k = m.get? k := by
  induction entries generalizing m with
  | nil => rfl
  | cons hd rest ih =>
      rw [List.map_cons, List.mem_cons, not_or] at h
      exact (ih h.2).trans (get?_insert_of_ne h.1 _)

/-- Keys that come once keep what they came with. -/
theorem get?_insertAll_of_mem {m : SortedMap κ ν} {entries : List (κ × ν)}
    (hkeys : (entries.map Prod.fst).Nodup) {k : κ} {v : ν} (h : (k, v) ∈ entries) :
    (m.insertAll entries).get? k = some v := by
  induction entries generalizing m with
  | nil => cases h
  | cons hd rest ih =>
      obtain ⟨hnot, hkeys⟩ := List.nodup_cons.mp hkeys
      rcases List.mem_cons.mp h with rfl | h
      · exact (get?_insertAll_of_not_mem hnot).trans (get?_insert_self m k v)
      · exact ih hkeys h

/-! ## All keys -/

/-- The entries `p` holds of. -/
def filter (m : SortedMap κ ν) (p : κ → ν → Bool) : SortedMap κ ν :=
  ⟨m.entries.filter fun e => p e.1 e.2, m.sorted.filter _⟩

def erase (m : SortedMap κ ν) (k : κ) : SortedMap κ ν := m.filter fun k' _ => k' ≠ k

/-- The entries `f` has a value for, with these. -/
def filterMap (m : SortedMap κ ν) (f : κ → ν → Option μ) : SortedMap κ μ where
  entries := m.entries.filterMap fun e => (f e.1 e.2).map fun v => (e.1, v)
  sorted := by
    refine m.sorted.filterMap _ fun a a' hlt b hb b' hb' => ?_
    obtain ⟨v, _, rfl⟩ := Option.map_eq_some_iff.mp hb
    obtain ⟨v', _, rfl⟩ := Option.map_eq_some_iff.mp hb'
    exact hlt

end SortedMap
