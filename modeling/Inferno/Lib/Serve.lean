import Mathlib.Data.List.Basic

/-!
# Serving items one after the other

A fallible step over a list, each item in the state the ones before it left.
All are served, each with a result that is as wanted, exactly if each item meets
the step's condition in the state it finds (`items_spec_iff`).
-/

namespace Serve

variable {S A B : Type}

/-- The last state, and what the items yielded. -/
def items (serve : S → A → Option (S × B)) : S → List A → Option (S × List B)
  | s, [] => some (s, [])
  | s, a :: as => do
      let (s, b) ← serve s a
      let (s, bs) ← items serve s as
      return (s, b :: bs)

/-- Each item meets the condition in the state it finds. -/
def EachOk (serve : S → A → Option (S × B)) (ok : S → A → Prop) : S → List A → Prop
  | _, [] => True
  | s, a :: as => ok s a ∧ ∀ s' b, serve s a = some (s', b) → EachOk serve ok s' as

variable {serve : S → A → Option (S × B)} {ok : S → A → Prop} {I : S → Prop} {Q : B → Prop}

/-- What every step keeps holds at the end. -/
theorem items_keeps (hkeep : ∀ s a s' b, I s → serve s a = some (s', b) → I s') {s s' : S}
    {as : List A} {bs : List B} (h : I s) (hrun : items serve s as = some (s', bs)) : I s' := by
  induction as generalizing s bs with
  | nil =>
      cases hrun
      exact h
  | cons a as ih =>
      obtain ⟨⟨s₁, b⟩, h₁, hrun⟩ := Option.bind_eq_some_iff.mp hrun
      obtain ⟨⟨s₂, bs₂⟩, h₂, hrun⟩ := Option.bind_eq_some_iff.mp hrun
      cases hrun
      exact ih (hkeep _ _ _ _ h h₁) h₂

/-- What holds of a state and of what the steps so far have put out. -/
theorem items_history {E : Type} {P : List E → S → Prop} {out : A → List E}
    (hstep : ∀ history s a s' b, P history s → serve s a = some (s', b) →
      P (history ++ out a) s')
    {history : List E} {s s' : S} {as : List A} {bs : List B} (h : P history s)
    (hrun : items serve s as = some (s', bs)) : P (history ++ as.flatMap out) s' := by
  induction as generalizing history s bs with
  | nil =>
      cases hrun
      rwa [List.flatMap_nil, List.append_nil]
  | cons a as ih =>
      obtain ⟨⟨s₁, b⟩, h₁, hrun⟩ := Option.bind_eq_some_iff.mp hrun
      obtain ⟨⟨s₂, bs₂⟩, h₂, hrun⟩ := Option.bind_eq_some_iff.mp hrun
      cases hrun
      rw [List.flatMap_cons, ← List.append_assoc]
      exact ih (hstep _ _ _ _ _ h h₁) h₂

/-- What every step yields is as wanted. -/
theorem items_yields (hkeep : ∀ s a s' b, I s → serve s a = some (s', b) → I s')
    (hyield : ∀ s a s' b, I s → serve s a = some (s', b) → Q b) {s s' : S} {as : List A}
    {bs : List B} (h : I s) (hrun : items serve s as = some (s', bs)) : ∀ b ∈ bs, Q b := by
  induction as generalizing s bs with
  | nil =>
      cases hrun
      exact fun b hb => by cases hb
  | cons a as ih =>
      obtain ⟨⟨s₁, b⟩, h₁, hrun⟩ := Option.bind_eq_some_iff.mp hrun
      obtain ⟨⟨s₂, bs₂⟩, h₂, hrun⟩ := Option.bind_eq_some_iff.mp hrun
      cases hrun
      exact List.forall_mem_cons.mpr
        ⟨hyield _ _ _ _ h h₁, ih (hkeep _ _ _ _ h h₁) h₂⟩

theorem items_spec_iff (hkeep : ∀ s a s' b, I s → serve s a = some (s', b) → I s')
    (hspec : ∀ s a, I s → ((∃ s' b, serve s a = some (s', b) ∧ Q b) ↔ ok s a)) {s : S}
    {as : List A} (h : I s) :
    (∃ s' bs, items serve s as = some (s', bs) ∧ ∀ b ∈ bs, Q b) ↔ EachOk serve ok s as := by
  induction as generalizing s with
  | nil => exact iff_of_true ⟨s, [], rfl, fun _ hb => by cases hb⟩ trivial
  | cons a as ih =>
      constructor
      · rintro ⟨s', bs, hrun, hq⟩
        obtain ⟨⟨s₁, b⟩, h₁, hrun⟩ := Option.bind_eq_some_iff.mp hrun
        obtain ⟨⟨s₂, bs₂⟩, h₂, hrun⟩ := Option.bind_eq_some_iff.mp hrun
        cases hrun
        obtain ⟨hb, hbs⟩ := List.forall_mem_cons.mp hq
        refine ⟨(hspec _ _ h).mp ⟨s₁, b, h₁, hb⟩, fun s'' b' h' => ?_⟩
        rw [h₁] at h'
        cases h'
        exact (ih (hkeep _ _ _ _ h h₁)).mp ⟨_, bs₂, h₂, hbs⟩
      · rintro ⟨hok, hrest⟩
        obtain ⟨s₁, b, h₁, hb⟩ := (hspec _ _ h).mpr hok
        obtain ⟨s₂, bs₂, h₂, hbs⟩ := (ih (hkeep _ _ _ _ h h₁)).mpr (hrest s₁ b h₁)
        refine ⟨s₂, b :: bs₂, ?_, List.forall_mem_cons.mpr ⟨hb, hbs⟩⟩
        simp only [items, h₁, h₂, Option.bind_eq_bind, Option.bind_some, Option.pure_def]

theorem items_isSome_iff (hkeep : ∀ s a s' b, I s → serve s a = some (s', b) → I s')
    (hspec : ∀ s a, I s → ((serve s a).isSome ↔ ok s a)) {s : S} {as : List A} (h : I s) :
    (items serve s as).isSome ↔ EachOk serve ok s as := by
  have hstep : ∀ s a, I s → ((∃ s' b, serve s a = some (s', b) ∧ True) ↔ ok s a) := by
    intro s a hs
    rw [← hspec s a hs]
    constructor
    · rintro ⟨s', b, hrun, _⟩
      exact Option.isSome_iff_exists.mpr ⟨_, hrun⟩
    · intro hsome
      obtain ⟨⟨s', b⟩, hrun⟩ := Option.isSome_iff_exists.mp hsome
      exact ⟨s', b, hrun, trivial⟩
  rw [← items_spec_iff hkeep hstep h]
  constructor
  · intro hsome
    obtain ⟨⟨s', bs⟩, hrun⟩ := Option.isSome_iff_exists.mp hsome
    exact ⟨s', bs, hrun, fun _ _ => trivial⟩
  · rintro ⟨s', bs, hrun, _⟩
    exact Option.isSome_iff_exists.mpr ⟨_, hrun⟩

/-- A condition that does not depend on the state. -/
theorem eachOk_const {ok : A → Prop} (hkeep : ∀ s a s' b, I s → serve s a = some (s', b) → I s')
    (hspec : ∀ s a, I s → ok a → (serve s a).isSome) {s : S} {as : List A} (h : I s) :
    EachOk serve (fun _ => ok) s as ↔ ∀ a ∈ as, ok a := by
  induction as generalizing s with
  | nil => exact iff_of_true trivial fun _ ha => by cases ha
  | cons a as ih =>
      rw [List.forall_mem_cons]
      refine and_congr_right fun hok => ?_
      obtain ⟨⟨s', b⟩, hs'⟩ := Option.isSome_iff_exists.mp (hspec _ _ h hok)
      constructor
      · exact fun hrest => (ih (hkeep _ _ _ _ h hs')).mp (hrest s' b hs')
      · exact fun hall s'' b' h' => (ih (hkeep _ _ _ _ h h')).mpr hall

/-- What follows from the condition, in every state that is reached under it. -/
theorem eachOk_of_inv {ok' : S → A → Prop}
    (hstep : ∀ s a, I s → ok s a → ok' s a ∧ ∀ s' b, serve s a = some (s', b) → I s') {s : S}
    {as : List A} (hs : I s) (h : EachOk serve ok s as) : EachOk serve ok' s as := by
  induction as generalizing s with
  | nil => trivial
  | cons a as ih =>
      obtain ⟨hok, hrest⟩ := h
      obtain ⟨hok', hkeep⟩ := hstep s a hs hok
      exact ⟨hok', fun s' b hrun => ih (hkeep s' b hrun) (hrest s' b hrun)⟩

/-- What holds of each item that is served, with the states before and after. -/
def Along (serve : S → A → Option (S × B)) (R : S → A → S → Prop) : S → List A → Prop
  | _, [] => True
  | s, a :: as => ∀ s' b, serve s a = some (s', b) → R s a s' ∧ Along serve R s' as

/-- If a step keeps `I` exactly under its condition, then `I` holds after every
step exactly if every step meets the condition. -/
theorem along_iff (h : ∀ s a s' b, I s → serve s a = some (s', b) → (I s' ↔ ok s a)) {s : S}
    {as : List A} (hs : I s) :
    Along serve (fun _ _ s' => I s') s as ↔ Along serve (fun s a _ => ok s a) s as := by
  induction as generalizing s with
  | nil => exact Iff.rfl
  | cons a as ih =>
      refine forall₃_congr fun s' b hrun => ?_
      constructor
      · exact fun ⟨hI, hrest⟩ => ⟨(h s a s' b hs hrun).mp hI, (ih hI).mp hrest⟩
      · intro ⟨hok, hrest⟩
        have hI := (h s a s' b hs hrun).mpr hok
        exact ⟨hI, (ih hI).mpr hrest⟩

end Serve
