import Mathlib.Logic.Function.Basic
import PrivateVm.Basic.Machine
import PrivateVm.Basic.Program

set_option autoImplicit false

/-! # Threads that share a state

A `Pool` runs calls in threads, each of which makes its operations one by one between those of the
others; an operation may have to wait (`enabled`). A `Contract` has an invariant of the shared
state and for each operation a condition under which a thread makes it. `Meets` judges the program
of one thread, whatever the others do in between, and `Contract.holds_of_reachable` puts these
judgements together for every configuration that a pool reaches.
-/

namespace Program

variable {Op : Type} {Res : Op → Type} {X S C α β : Type}

/-- How a thread's operations act on the shared state, when they can be made, and the programs of
the calls. -/
structure Pool (Op : Type) (Res : Op → Type) (X S C : Type) where
  exec : Nat → (o : Op) → X → S → Res o × S
  enabled : Nat → Op → X → S → Bool
  body : Nat → C → Prog Op Res Unit

/-- The shared state, and the program each thread has still to run. -/
structure Config (Op : Type) (Res : Op → Type) (S : Type) where
  state : S
  thread : Nat → Option (Prog Op Res Unit)

inductive Move (X C : Type) where
  | start (t : Nat) (c : C)
  | op (t : Nat) (x : X)
  | finish (t : Nat)

namespace Pool

/-- One move; a move that cannot be made changes nothing. -/
def step (P : Pool Op Res X S C) : Move X C → Config Op Res S → Config Op Res S
  | .start t c, g =>
    match g.thread t with
    | none => { g with thread := Function.update g.thread t (some (P.body t c)) }
    | some _ => g
  | .op t x, g =>
    match g.thread t with
    | some (.op o k) =>
      if P.enabled t o x g.state then
        ⟨(P.exec t o x g.state).2,
          Function.update g.thread t (some (k (P.exec t o x g.state).1))⟩
      else g
    | _ => g
  | .finish t, g =>
    match g.thread t with
    | some (.pure _) => { g with thread := Function.update g.thread t none }
    | _ => g

/-- The pool with its initial states; no thread is busy at first. -/
def machine (P : Pool Op Res X S C) (init : S → Prop) : Machine (Config Op Res S) (Move X C) where
  init g := init g.state ∧ ∀ t, g.thread t = none
  step := P.step

end Pool

/-! ## Contracts -/

/-- What the threads of a pool keep to. `permits` restricts the choices of a run. -/
structure Contract (P : Pool Op Res X S C) where
  permits : Nat → Op → X → S → Prop
  inv : S → Prop
  before : Nat → Op → S → Prop
  keeps : ∀ {t o x s}, inv s → before t o s → P.enabled t o x s = true → permits t o x s →
    inv (P.exec t o x s).2

namespace Contract

variable {P : Pool Op Res X S C} (K : Contract P) (t : Nat)

/-- A thread makes an operation as the contract says. -/
def Acts (s s' : S) : Prop :=
  ∃ o x, K.inv s ∧ K.before t o s ∧ P.enabled t o x s = true ∧ K.permits t o x s ∧
    s' = (P.exec t o x s).2

/-- No operation of another thread destroys a condition. -/
def Stable (A : S → Prop) : Prop := ∀ t' s s', t' ≠ t → K.Acts t' s s' → A s → A s'

/-- What the other threads can do between two operations of a thread. -/
def Rely : S → S → Prop := Relation.ReflTransGen fun s s' => ∃ t', t' ≠ t ∧ K.Acts t' s s'

/-- The judgement of a program of a thread. -/
def Meets : Prog Op Res α → (α → S → Prop) → S → Prop
  | .pure a, Q, s => ∀ s', K.Rely t s s' → Q a s'
  | .op o k, Q, s => ∀ s', K.Rely t s s' → K.inv s' → K.before t o s' ∧
      ∀ x, P.enabled t o x s' = true → K.permits t o x s' →
        Meets (k (P.exec t o x s').1) Q (P.exec t o x s').2

variable {K t} {A B : S → Prop} {s s' : S}

theorem Stable.rely (hA : K.Stable t A) (h : K.Rely t s s') (hs : A s) : A s' := by
  induction h with
  | refl => exact hs
  | tail _ hact ih =>
    obtain ⟨t', hne, hact⟩ := hact
    exact hA t' _ _ hne hact ih

theorem Stable.and (hA : K.Stable t A) (hB : K.Stable t B) : K.Stable t fun s => A s ∧ B s :=
  fun t' s s' hne hact h => ⟨hA t' s s' hne hact h.1, hB t' s s' hne hact h.2⟩

theorem stable_const (p : Prop) : K.Stable t fun _ => p := fun _ _ _ _ _ h => h

variable {p : Prog Op Res α} {Q : α → S → Prop} {o : Op}

theorem Meets.rely (h : K.Meets t p Q s) (hs : K.Rely t s s') : K.Meets t p Q s' := by
  cases p with
  | pure a | op => exact fun s'' h' => h s'' (hs.trans h')

theorem Meets.post {Q' : α → S → Prop} (h : K.Meets t p Q s) (hQ : ∀ a s, Q a s → Q' a s) :
    K.Meets t p Q' s := by
  induction p generalizing s with
  | pure a => exact fun s' h' => hQ a s' (h s' h')
  | op o k ih =>
    intro s' h' hinv
    obtain ⟨hbefore, hk⟩ := h s' h' hinv
    exact ⟨hbefore, fun x hen hperm => ih _ (hk x hen hperm)⟩

theorem meets_pure {a : α} (hA : K.Stable t A) (hs : A s) (hQ : ∀ s, A s → Q a s) :
    K.Meets t (pure a) Q s :=
  fun s' h => hQ s' (hA.rely h hs)

theorem meets_bind {f : α → Prog Op Res β} {Q : β → S → Prop}
    (h : K.Meets t p (fun a s => K.Meets t (f a) Q s) s) : K.Meets t (p >>= f) Q s := by
  induction p generalizing s with
  | pure => exact h s .refl
  | op o k ih =>
    intro s' h' hinv
    obtain ⟨hbefore, hk⟩ := h s' h' hinv
    exact ⟨hbefore, fun x hen hperm => ih _ (hk x hen hperm)⟩

/-- One operation: a stable condition holds until it is made. -/
theorem meets_call_bind {f : Res o → Prog Op Res β} {Q : β → S → Prop} (hA : K.Stable t A)
    (hs : A s) (hbefore : ∀ s, K.inv s → A s → K.before t o s)
    (hf : ∀ s x, K.inv s → A s → P.enabled t o x s = true → K.permits t o x s →
      K.Meets t (f (P.exec t o x s).1) Q (P.exec t o x s).2) : K.Meets t (.call o >>= f) Q s := by
  intro s' h' hinv
  have hs' := hA.rely h' hs
  exact ⟨hbefore s' hinv hs', fun x => hf s' x hinv hs'⟩

theorem meets_call {Q : Res o → S → Prop} (hA : K.Stable t A) (hs : A s)
    (hbefore : ∀ s, K.inv s → A s → K.before t o s)
    (hQ : ∀ s x, K.inv s → A s → P.enabled t o x s = true → K.permits t o x s →
      ∀ s', K.Rely t (P.exec t o x s).2 s' → Q (P.exec t o x s).1 s') :
    K.Meets t (.call o) Q s := by
  intro s' h' hinv
  have hs' := hA.rely h' hs
  exact ⟨hbefore s' hinv hs', fun x => hQ s' x hinv hs'⟩

/-- A program whose operations all keep a condition ends with an answer it can give. -/
theorem meets_of_uses {U : Op → Prop} (hp : p.Uses U) (hA : K.Stable t A)
    (hbefore : ∀ o s, U o → K.inv s → A s → K.before t o s)
    (hkeeps : ∀ o x s, U o → A s → A (P.exec t o x s).2) (hs : A s) :
    K.Meets t p (fun a s => A s ∧ p.Gives a) s := by
  induction p generalizing s with
  | pure => exact fun s' h => ⟨hA.rely h hs, rfl⟩
  | op o k ih =>
    intro s' h hinv
    have hs' := hA.rely h hs
    refine ⟨hbefore o s' hp.1 hinv hs', fun x _ _ => ?_⟩
    exact (ih _ (hp.2 _) (hkeeps o x s' hp.1 hs')).post fun a s ha => ⟨ha.1, _, ha.2⟩

/-! ## Fallible programs -/

section

variable {E : Type} {Q : Except E β → S → Prop}

theorem meets_lift_bind {o : Op} {f : Res o → ExceptT E (Prog Op Res) β} (hA : K.Stable t A)
    (hs : A s) (hbefore : ∀ s, K.inv s → A s → K.before t o s)
    (hf : ∀ s x, K.inv s → A s → P.enabled t o x s = true → K.permits t o x s →
      K.Meets t (f (P.exec t o x s).1).run Q (P.exec t o x s).2) :
    K.Meets t (.lift (.call o) >>= f).run Q s :=
  meets_call_bind hA hs hbefore hf

variable {f : α → ExceptT E (Prog Op Res) β}

theorem meets_check_bind {e : Except E α}
    (herr : ∀ err, e = .error err → K.Meets t (pure (.error err)) Q s)
    (hok : ∀ a, e = .ok a → K.Meets t (f a).run Q s) :
    K.Meets t ((liftM e : ExceptT E (Prog Op Res) α) >>= f).run Q s := by
  cases e with
  | error err => exact herr err rfl
  | ok a => exact hok a rfl

theorem meets_run_bind {p} {R : Except E α → S → Prop} (hp : K.Meets t p.run R s)
    (herr : ∀ err s, R (.error err) s → K.Meets t (pure (.error err)) Q s)
    (hok : ∀ a s, R (.ok a) s → K.Meets t (f a).run Q s) : K.Meets t (p >>= f).run Q s := by
  refine meets_bind (hp.post fun r s hr => ?_)
  cases r with
  | error err => exact herr err s hr
  | ok a => exact hok a s hr

theorem meets_tryCatch {p} {f : E → ExceptT E (Prog Op Res) β} {R : Except E β → S → Prop}
    (hp : K.Meets t p.run R s) (herr : ∀ err s, R (.error err) s → K.Meets t (f err).run Q s)
    (hok : ∀ a s, R (.ok a) s → K.Meets t (pure (.ok a)) Q s) :
    K.Meets t (tryCatch p f).run Q s := by
  refine meets_bind (hp.post fun r s hr => ?_)
  cases r with
  | error err => exact herr err s hr
  | ok a => exact hok a s hr

end

/-! ## Whole runs -/

/-- What holds of one thread: while it is free a condition `idle`, and else the judgement of the
program it has still to run. -/
def Runs (K : Contract P) (idle : Nat → S → Prop) (t : Nat) (s : S) :
    Option (Prog Op Res Unit) → Prop
  | none => idle t s
  | some p => K.Meets t p (fun _ => idle t) s

/-- The programs of all calls keep to a contract. -/
structure Kept (K : Contract P) (init : S → Prop) (idle : Nat → S → Prop) : Prop where
  init : ∀ s, init s → K.inv s ∧ ∀ t, idle t s
  stable : ∀ t, K.Stable t (idle t)
  body : ∀ t c s, K.inv s → idle t s → K.Meets t (P.body t c) (fun _ => idle t) s

/-- The invariant holds, and every thread is at a place where its judgement holds. -/
structure Holds (K : Contract P) (idle : Nat → S → Prop) (g : Config Op Res S) : Prop where
  inv : K.inv g.state
  runs : ∀ t, K.Runs idle t g.state (g.thread t)

variable {init : S → Prop} {idle : Nat → S → Prop} {g : Config Op Res S}

theorem Runs.acts {p} (hK : K.Kept init idle) {t' : Nat} (h : K.Runs idle t s p) (hne : t' ≠ t)
    (hact : K.Acts t' s s') : K.Runs idle t s' p := by
  cases p with
  | none => exact hK.stable t t' s s' hne hact h
  | some => exact .rely h (.single ⟨t', hne, hact⟩)

/-- The next operation of a thread is made under its condition. -/
theorem Holds.before {k : Res o → Prog Op Res Unit} (h : K.Holds idle g)
    (hthr : g.thread t = some (.op o k)) : K.before t o g.state := by
  have hrun := h.runs t
  rw [hthr] at hrun
  exact (hrun g.state .refl h.inv).1

theorem Holds.start (hK : K.Kept init idle) (h : K.Holds idle g) (t : Nat) (c : C) :
    K.Holds idle (P.step (.start t c) g) := by
  simp only [Pool.step]
  split
  · rename_i hidle
    refine ⟨h.inv, fun t' => ?_⟩
    by_cases ht : t' = t
    · subst ht
      have hfree := h.runs t'
      rw [hidle] at hfree
      simp
      exact hK.body t' c g.state h.inv hfree
    · simp only [Function.update_of_ne ht]
      exact h.runs t'
  · exact h

theorem Holds.op (hK : K.Kept init idle) (h : K.Holds idle g) (t : Nat) (x : X)
    (hperm : ∀ o k, g.thread t = some (.op o k) → K.permits t o x g.state) :
    K.Holds idle (P.step (.op t x) g) := by
  simp only [Pool.step]
  split
  · rename_i o k hthr
    split
    · rename_i hen
      have hbefore := h.before hthr
      have hper := hperm o k hthr
      have hact : K.Acts t g.state (P.exec t o x g.state).2 :=
        ⟨o, x, h.inv, hbefore, hen, hper, rfl⟩
      refine ⟨K.keeps h.inv hbefore hen hper, fun t' => ?_⟩
      by_cases ht : t' = t
      · subst ht
        have hrun := h.runs t'
        rw [hthr] at hrun
        simp
        exact (hrun g.state .refl h.inv).2 x hen hper
      · simp only [Function.update_of_ne ht]
        exact (h.runs t').acts hK (.symm ht) hact
    · exact h
  · exact h

theorem Holds.finish (h : K.Holds idle g) (t : Nat) : K.Holds idle (P.step (.finish t) g) := by
  simp only [Pool.step]
  split
  · rename_i hthr
    refine ⟨h.inv, fun t' => ?_⟩
    by_cases ht : t' = t
    · subst ht
      have hrun := h.runs t'
      rw [hthr] at hrun
      simp
      exact hrun g.state .refl
    · simp only [Function.update_of_ne ht]
      exact h.runs t'
  · exact h

/-- **Threads that keep to a contract**: in every configuration that permitted moves reach, the
invariant holds and every thread is at a place of its program where its judgement holds. -/
theorem holds_of_reachable {G : Move X C → Config Op Res S → Prop} (hK : K.Kept init idle)
    (hG : ∀ t x g, G (.op t x) g → ∀ o k, g.thread t = some (.op o k) → K.permits t o x g.state)
    (h : (P.machine init).Reachable G g) : K.Holds idle g := by
  refine Machine.Reachable.inv (fun g hg => ?_) (fun move g hmove hg => ?_) h
  · obtain ⟨hinv, hidle⟩ := hK.init g.state hg.1
    refine ⟨hinv, fun t => ?_⟩
    rw [hg.2 t]
    exact hidle t
  · cases move with
    | start t c => exact hg.start hK t c
    | op t x => exact hg.op hK t x (hG t x g hmove)
    | finish t => exact hg.finish t

-- judgements are taken apart by the rules, not by running the program
attribute [irreducible] Meets

end Contract

end Program
