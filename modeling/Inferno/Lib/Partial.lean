import Mathlib.Tactic.Common

/-!
# Loops that may stop

Loops over a list with a step that may fail: what each step keeps, a loop that
has come to its end has kept. A step may have to find its state in some
condition for that (`Each`).
-/

namespace Partial

variable {σ α β : Type} {f : σ → α → Option σ}

theorem foldlM_inv {I : σ → Prop} {l : List α} {s s' : σ}
    (hstep : ∀ s a s', a ∈ l → I s → f s a = some s' → I s') (hs : I s)
    (h : l.foldlM f s = some s') : I s' := by
  induction l generalizing s with
  | nil =>
      obtain rfl : s = s' := Option.some.inj h
      exact hs
  | cons a l ih =>
      rw [List.foldlM_cons] at h
      obtain ⟨s₁, h₁, h⟩ := Option.bind_eq_some_iff.mp h
      have hs₁ := hstep s a s₁ List.mem_cons_self hs h₁
      exact ih (fun s a s' ha => hstep s a s' (List.mem_cons_of_mem _ ha)) hs₁ h

/-- Each element finds a state that meets the condition. -/
def Each (f : σ → α → Option σ) (ok : σ → α → Prop) : σ → List α → Prop
  | _, [] => True
  | s, a :: l => ok s a ∧ ∀ s', f s a = some s' → Each f ok s' l

theorem Each.foldlM_inv {ok : σ → α → Prop} {I : σ → Prop} {l : List α} {s s' : σ}
    (hstep : ∀ s a s', a ∈ l → I s → ok s a → f s a = some s' → I s') (hs : I s)
    (hok : Each f ok s l) (h : l.foldlM f s = some s') : I s' := by
  induction l generalizing s with
  | nil =>
      obtain rfl : s = s' := Option.some.inj h
      exact hs
  | cons a l ih =>
      rw [List.foldlM_cons] at h
      obtain ⟨s₁, h₁, h⟩ := Option.bind_eq_some_iff.mp h
      obtain ⟨ha, hrest⟩ := hok
      have hs₁ := hstep s a s₁ List.mem_cons_self hs ha h₁
      exact ih (fun s a s' ha => hstep s a s' (List.mem_cons_of_mem _ ha)) hs₁ (hrest s₁ h₁) h

theorem foldl_inv {g : σ → α → σ} {I : σ → Prop} {l : List α} {s : σ}
    (hstep : ∀ s a, a ∈ l → I s → I (g s a)) (hs : I s) : I (l.foldl g s) := by
  induction l generalizing s with
  | nil => exact hs
  | cons a l ih =>
      exact ih (fun s a ha => hstep s a (List.mem_cons_of_mem _ ha))
        (hstep s a List.mem_cons_self hs)

/-- Each result of a loop comes from an element. -/
theorem mem_of_mapM {g : α → Option β} {l : List α} {out : List β} (h : l.mapM g = some out) :
    ∀ b ∈ out, ∃ a ∈ l, g a = some b := by
  induction l generalizing out with
  | nil =>
      obtain rfl : [] = out := Option.some.inj h
      exact fun b hb => by cases hb
  | cons a l ih =>
      rw [List.mapM_cons] at h
      obtain ⟨b, hb, h⟩ := Option.bind_eq_some_iff.mp h
      obtain ⟨rest, hrest, h⟩ := Option.bind_eq_some_iff.mp h
      obtain rfl := Option.some.inj h
      intro b' hb'
      rcases List.mem_cons.mp hb' with rfl | hb'
      · exact ⟨a, List.mem_cons_self, hb⟩
      · obtain ⟨a', ha', hg⟩ := ih hrest b' hb'
        exact ⟨a', List.mem_cons_of_mem _ ha', hg⟩

/-- What the results of a loop stand for, if each stands for what its element
does. -/
theorem flatMap_of_mapM {γ : Type} {g : α → Option β} {p : β → List γ} {q : α → List γ}
    {l : List α} {out : List β} (hpq : ∀ a b, g a = some b → p b = q a)
    (h : l.mapM g = some out) : out.flatMap p = l.flatMap q := by
  induction l generalizing out with
  | nil =>
      obtain rfl : [] = out := Option.some.inj h
      rfl
  | cons a l ih =>
      rw [List.mapM_cons] at h
      obtain ⟨b, hb, h⟩ := Option.bind_eq_some_iff.mp h
      obtain ⟨rest, hrest, h⟩ := Option.bind_eq_some_iff.mp h
      obtain rfl := Option.some.inj h
      rw [List.flatMap_cons, List.flatMap_cons, hpq a b hb, ih hrest]

/-- A loop comes to its end if no element stops it. -/
theorem mapM_isSome {g : α → Option β} {l : List α} (h : ∀ a ∈ l, (g a).isSome) :
    (l.mapM g).isSome := by
  induction l with
  | nil => rfl
  | cons a l ih =>
      obtain ⟨b, hb⟩ := Option.isSome_iff_exists.mp (h a List.mem_cons_self)
      obtain ⟨rest, hrest⟩ := Option.isSome_iff_exists.mp
        (ih fun a' ha' => h a' (List.mem_cons_of_mem _ ha'))
      rw [List.mapM_cons, hb, hrest]
      rfl

/-- Each element has its result in a loop that came to its end. -/
theorem exists_of_mapM {g : α → Option β} {l : List α} {out : List β} (h : l.mapM g = some out) :
    ∀ a ∈ l, ∃ b ∈ out, g a = some b := by
  induction l generalizing out with
  | nil => exact nofun
  | cons a l ih =>
      rw [List.mapM_cons] at h
      obtain ⟨b, hb, h⟩ := Option.bind_eq_some_iff.mp h
      obtain ⟨rest, hrest, h⟩ := Option.bind_eq_some_iff.mp h
      obtain rfl := Option.some.inj h
      intro a' ha'
      rcases List.mem_cons.mp ha' with rfl | ha'
      · exact ⟨b, List.mem_cons_self, hb⟩
      · obtain ⟨b', hb', hg⟩ := ih hrest a' ha'
        exact ⟨b', List.mem_cons_of_mem _ hb', hg⟩

end Partial
