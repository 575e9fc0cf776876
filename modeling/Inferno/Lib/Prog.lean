import Mathlib.Logic.Relation
import Mathlib.Tactic.Common

/-!
# Programs of atomic actions and a rely-guarantee logic for them

A program over an interface of atomic actions is a tree: it returns, it
performs one action and continues with the response, or it fails (an
assertion of the code that panics). The tree is the code's text at the
granularity of its atomic steps, so one definition serves two readings:

- `exec` runs it alone, all actions in a row;
- `Step` interleaves its actions with those of an environment.

`Wp rely guar p Q s` says that `p`, started at `s` among environment steps in
`rely`, never fails, makes only steps in `guar`, and ends in `Q`. With `rely`
equality it is total correctness of the program run alone (`Wp.exec`) and at
the same time a statement about every intermediate state of that run; with a
reflexive and transitive `rely` it is sound for every interleaving
(`Wp.steps`).
-/

/-- The atomic actions of an interface and the type of each one's response. -/
structure Iface where
  Op : Type
  Res : Op → Type

/-- A program over the interface `I` with result in `β`. -/
inductive Prog (I : Iface) (β : Type) where
  | ret (b : β)
  | act (c : I.Op) (k : I.Res c → Prog I β)
  | fail

/-- What each action answers and does to a state. -/
def Handler (I : Iface) (σ : Type) := (c : I.Op) → σ → I.Res c × σ

namespace Prog

variable {I : Iface} {β γ ι σ τ : Type}

/-! ## Sequencing -/

def bind : Prog I β → (β → Prog I γ) → Prog I γ
  | ret b, f => f b
  | act c k, f => act c fun r => (k r).bind f
  | fail, _ => fail

instance : Monad (Prog I) where
  pure := ret
  bind := bind

@[simp] theorem pure_eq (b : β) : (pure b : Prog I β) = ret b := rfl

@[simp] theorem bind_eq (p : Prog I β) (f : β → Prog I γ) : p >>= f = p.bind f := rfl

@[simp] theorem ret_bind (b : β) (f : β → Prog I γ) : (ret b).bind f = f b := rfl

@[simp] theorem act_bind (c : I.Op) (k : I.Res c → Prog I β) (f : β → Prog I γ) :
    (act c k).bind f = act c fun r => (k r).bind f := rfl

@[simp] theorem fail_bind (f : β → Prog I γ) : (fail : Prog I β).bind f = fail := rfl

/-- Perform one action and return its response. -/
def call (c : I.Op) : Prog I (I.Res c) := act c ret

@[simp] theorem call_bind (c : I.Op) (f : I.Res c → Prog I γ) :
    (call c).bind f = act c f := rfl

/-- An assertion of the code. -/
def assert (P : Prop) [Decidable P] : Prog I Unit := if P then ret () else fail

theorem assert_bind {P : Prop} [Decidable P] (h : P) (f : Unit → Prog I γ) :
    (assert P).bind f = f () := by
  simp [assert, h]

/-! ## Running alone -/

/-- Run a program with nothing in between; `none` is a failed assertion. -/
def exec (h : Handler I σ) : Prog I β → σ → Option (β × σ)
  | ret b, s => some (b, s)
  | act c k, s => exec h (k (h c s).1) (h c s).2
  | fail, _ => none

@[simp] theorem exec_ret (h : Handler I σ) (b : β) (s : σ) :
    exec h (ret b) s = some (b, s) := rfl

@[simp] theorem exec_act (h : Handler I σ) (c : I.Op) (k : I.Res c → Prog I β) (s : σ) :
    exec h (act c k) s = exec h (k (h c s).1) (h c s).2 := rfl

@[simp] theorem exec_fail (h : Handler I σ) (s : σ) :
    exec h (fail : Prog I β) s = none := rfl

theorem exec_bind (h : Handler I σ) (p : Prog I β) (f : β → Prog I γ) (s : σ) :
    exec h (p.bind f) s = (exec h p s).bind fun r => exec h (f r.1) r.2 := by
  induction p generalizing s with
  | ret b => rfl
  | act c k ih => exact ih _ _
  | fail => rfl

/-- A first half that comes to its end. -/
theorem exec_bind_of {h : Handler I σ} {p : Prog I β} {f : β → Prog I γ} {s s' : σ} {b : β}
    (hp : exec h p s = some (b, s')) : exec h (p >>= f) s = exec h (f b) s' := by
  rw [bind_eq, exec_bind, hp]
  rfl

/-- A map of states that commutes with the handlers commutes with `exec`. -/
theorem exec_map {h : Handler I σ} {g : Handler I τ} (f : σ → τ)
    (hf : ∀ c s, g c (f s) = ((h c s).1, f (h c s).2)) (p : Prog I β) (s : σ) :
    exec g p (f s) = (exec h p s).map fun r => (r.1, f r.2) := by
  induction p generalizing s with
  | ret b => rfl
  | act c k ih =>
      simp only [exec_act, hf]
      exact ih _ _
  | fail => rfl

/-! ## The logic -/

/-- `p` from `s`, among steps in `rely`: no failure, own steps in `guar`,
result and final state in `Q`. -/
def Wp (h : Handler I σ) (rely guar : σ → σ → Prop) : Prog I β → (β → σ → Prop) → σ → Prop
  | ret b, Q, s => ∀ s', rely s s' → Q b s'
  | act c k, Q, s =>
      ∀ s', rely s s' → guar s' (h c s').2 ∧ Wp h rely guar (k (h c s').1) Q (h c s').2
  | fail, _, _ => False

section Wp

variable {h : Handler I σ} {rely guar : σ → σ → Prop}

@[simp] theorem wp_ret {b : β} {Q : β → σ → Prop} {s : σ} :
    Wp h rely guar (ret b) Q s ↔ ∀ s', rely s s' → Q b s' := Iff.rfl

@[simp] theorem wp_act {c : I.Op} {k : I.Res c → Prog I β} {Q : β → σ → Prop} {s : σ} :
    Wp h rely guar (act c k) Q s ↔
      ∀ s', rely s s' → guar s' (h c s').2 ∧ Wp h rely guar (k (h c s').1) Q (h c s').2 :=
  Iff.rfl

theorem Wp.mono {p : Prog I β} {Q Q' : β → σ → Prop} {s : σ}
    (hp : Wp h rely guar p Q s) (hQ : ∀ b s', Q b s' → Q' b s') :
    Wp h rely guar p Q' s := by
  induction p generalizing s with
  | ret b => exact fun s' hr => hQ b s' (hp s' hr)
  | act c k ih => exact fun s' hr => ⟨(hp s' hr).1, ih _ (hp s' hr).2⟩
  | fail => exact hp

theorem Wp.bind {p : Prog I β} {f : β → Prog I γ} {Q : γ → σ → Prop} {s : σ}
    (hrefl : ∀ s, rely s s)
    (hp : Wp h rely guar p (fun b s' => Wp h rely guar (f b) Q s') s) :
    Wp h rely guar (p.bind f) Q s := by
  induction p generalizing s with
  | ret b => exact hp s (hrefl s)
  | act c k ih => exact fun s' hr => ⟨(hp s' hr).1, ih _ (hp s' hr).2⟩
  | fail => exact hp

/-- A loop over a list: an invariant indexed by the part already visited. -/
theorem Wp.foldlM (Inv : List ι → γ → σ → Prop) {f : γ → ι → Prog I γ} {l : List ι}
    (hrefl : ∀ s, rely s s) (hstable : ∀ pre acc s s', Inv pre acc s → rely s s' → Inv pre acc s')
    (hstep : ∀ pre x post acc s, l = pre ++ x :: post → Inv pre acc s →
      Wp h rely guar (f acc x) (fun acc' s' => Inv (pre ++ [x]) acc' s') s)
    {acc : γ} {s : σ} (hinit : Inv [] acc s) :
    Wp h rely guar (l.foldlM f acc) (fun acc' s' => Inv l acc' s') s := by
  suffices hgen : ∀ post pre acc s, l = pre ++ post → Inv pre acc s →
      Wp h rely guar (post.foldlM f acc) (fun acc' s' => Inv l acc' s') s from
    hgen l [] acc s rfl hinit
  intro post
  induction post with
  | nil =>
      intro pre acc s hl hinv s' hr
      rw [List.append_nil] at hl
      exact hstable _ _ _ _ (hl ▸ hinv) hr
  | cons x post ih =>
      intro pre acc s hl hinv
      rw [List.foldlM_cons]
      refine Wp.bind hrefl ((hstep pre x post acc s hl hinv).mono fun acc' s' hinv' => ?_)
      exact ih (pre ++ [x]) acc' s' (by rw [hl, List.append_assoc]; rfl) hinv'

/-- What holds under interference holds of the program run alone, which moves
the state by steps of the guarantee only. -/
theorem Wp.exec {p : Prog I β} {Q : β → σ → Prop} {s : σ} (hrefl : ∀ s, rely s s)
    (hp : Wp h rely guar p Q s) :
    ∃ b s', exec h p s = some (b, s') ∧ Q b s' ∧ Relation.ReflTransGen guar s s' := by
  induction p generalizing s with
  | ret b => exact ⟨b, s, rfl, hp s (hrefl s), .refl⟩
  | act c k ih =>
      obtain ⟨hg, hk⟩ := hp s (hrefl s)
      obtain ⟨b, s', hexec, hQ, hsteps⟩ := ih _ hk
      exact ⟨b, s', hexec, hQ, .head hg hsteps⟩
  | fail => exact hp.elim

/-- A step of the environment keeps the judgement. -/
theorem Wp.stable {p : Prog I β} {Q : β → σ → Prop} {s s' : σ}
    (htrans : ∀ a b c, rely a b → rely b c → rely a c) (hp : Wp h rely guar p Q s)
    (hr : rely s s') : Wp h rely guar p Q s' := by
  cases p with
  | ret b => exact fun s'' hr' => hp s'' (htrans _ _ _ hr hr')
  | act c k => exact fun s'' hr' => hp s'' (htrans _ _ _ hr hr')
  | fail => exact hp

end Wp

/-! ## Running among others -/

/-- One step of a program among an environment: the program's next action, or
a step of the environment. -/
inductive Step (h : Handler I σ) (env : σ → σ → Prop) : Prog I β × σ → Prog I β × σ → Prop
  | own (c : I.Op) (k : I.Res c → Prog I β) (s : σ) :
      Step h env (act c k, s) (k (h c s).1, (h c s).2)
  | env (p : Prog I β) {s s' : σ} : env s s' → Step h env (p, s) (p, s')

/-- Any number of steps, in any order of program and environment. -/
abbrev Steps (h : Handler I σ) (env : σ → σ → Prop) :
    Prog I β × σ → Prog I β × σ → Prop :=
  Relation.ReflTransGen (Step h env)

/-- The judgement is kept along every interleaving: as long as an invariant
holds, the environment's steps are in `rely` and keep it, and the program's
own steps keep it by their guarantee. -/
theorem Wp.steps {h : Handler I σ} {rely guar env : σ → σ → Prop} (Inv : σ → Prop)
    (hrefl : ∀ s, rely s s) (htrans : ∀ a b c, rely a b → rely b c → rely a c)
    (henv : ∀ s s', Inv s → env s s' → rely s s' ∧ Inv s')
    (hown : ∀ s s', Inv s → guar s s' → Inv s') {Q : β → σ → Prop} {x y : Prog I β × σ}
    (hp : Wp h rely guar x.1 Q x.2) (hinv : Inv x.2) (hxy : Steps h env x y) :
    Wp h rely guar y.1 Q y.2 ∧ Inv y.2 := by
  induction hxy with
  | refl => exact ⟨hp, hinv⟩
  | tail _ hstep ih =>
      obtain ⟨hwp, hi⟩ := ih
      cases hstep with
      | own c k s =>
          obtain ⟨hg, hk⟩ := hwp s (hrefl s)
          exact ⟨hk, hown _ _ hi hg⟩
      | env p he =>
          obtain ⟨hr, hi'⟩ := henv _ _ hi he
          exact ⟨hwp.stable htrans hr, hi'⟩

/-- Running alone is one of the interleavings. -/
theorem steps_of_exec {h : Handler I σ} {env : σ → σ → Prop} {p : Prog I β} {s s' : σ} {b : β}
    (hexec : exec h p s = some (b, s')) : Steps h env (p, s) (ret b, s') := by
  induction p generalizing s with
  | ret b' =>
      obtain ⟨rfl, rfl⟩ := Prod.mk.inj (Option.some.inj hexec)
      exact .refl
  | act c k ih => exact .head (.own c k s) (ih _ hexec)
  | fail => cases hexec

/-! ## Recording the states passed -/

/-- The handler that keeps a list of all states passed, latest first. -/
def record (h : Handler I σ) : Handler I (σ × List σ) :=
  fun c x => ((h c x.1).1, ((h c x.1).2, (h c x.1).2 :: x.2))

/-- The environment under recording. -/
def recordEnv (env : σ → σ → Prop) : σ × List σ → σ × List σ → Prop :=
  fun x y => env x.1 y.1 ∧ y.2 = y.1 :: x.2

end Prog
