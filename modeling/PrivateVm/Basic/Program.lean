import Mathlib.Logic.Relation

set_option autoImplicit false

/-! # Programs of atomic operations, and what holds while they run

Between two operations of a `Prog` the environment may change the state. `Safe` says that an
invariant holds at every moment of every execution and a postcondition at its end, whatever the
operations answer and the environment does; it is a weakest precondition, closed under the
environment's steps. An `Actor` is a thread that takes up one program after the other, and
`Reach.inv` turns `Safe` proofs of the programs into an invariant of all configurations.
-/

namespace Program

/-! ## Programs -/

inductive Prog (Op : Type) (Res : Op → Type) (α : Type) where
  | pure (a : α)
  | op (o : Op) (k : Res o → Prog Op Res α)

variable {Op : Type} {Res : Op → Type} {α β : Type}

namespace Prog

def bind : Prog Op Res α → (α → Prog Op Res β) → Prog Op Res β
  | .pure a, f => f a
  | .op o k, f => .op o fun r => (k r).bind f

instance : Monad (Prog Op Res) where
  pure := .pure
  bind := bind

def call (o : Op) : Prog Op Res (Res o) := .op o .pure

/-- Every operation of a program is in `U`. -/
def Uses (U : Op → Prop) : Prog Op Res α → Prop
  | .pure _ => True
  | .op o k => U o ∧ ∀ r, (k r).Uses U

variable {U U' : Op → Prop}

theorem uses_pure (a : α) : (pure a : Prog Op Res α).Uses U := trivial

theorem uses_call {o : Op} : (call o : Prog Op Res (Res o)).Uses U ↔ U o :=
  ⟨And.left, fun h => ⟨h, fun _ => trivial⟩⟩

variable {p : Prog Op Res α} {f : α → Prog Op Res β} {b : β}

theorem Uses.bind (hp : p.Uses U) (hf : ∀ a, (f a).Uses U) : (p >>= f).Uses U := by
  induction p with
  | pure a => exact hf a
  | op o k ih => exact ⟨hp.1, fun r => ih r (hp.2 r)⟩

theorem uses_all (p : Prog Op Res α) : p.Uses fun _ => True := by
  induction p with
  | pure => trivial
  | op o k ih => exact ⟨trivial, ih⟩

theorem Uses.mono (hp : p.Uses U) (h : ∀ o, U o → U' o) : p.Uses U' := by
  induction p with
  | pure => trivial
  | op o k ih => exact ⟨h o hp.1, fun r => ih r (hp.2 r)⟩

section

variable {E : Type}

theorem uses_lift {o : Op} (h : U o) :
    (.lift (call o) : ExceptT E (Prog Op Res) (Res o)).run.Uses U :=
  ⟨h, fun _ => trivial⟩

theorem uses_check (e : Except E α) : (liftM e : ExceptT E (Prog Op Res) α).run.Uses U := trivial

theorem uses_throw (e : E) : (throw e : ExceptT E (Prog Op Res) α).run.Uses U := trivial

theorem Uses.run_bind {p} {f : α → ExceptT E (Prog Op Res) β} (hp : p.run.Uses U)
    (hf : ∀ a, (f a).run.Uses U) : (p >>= f).run.Uses U := by
  refine .bind hp fun r => ?_
  cases r with
  | ok a => exact hf a
  | error => trivial

end

/-- Some answers make a program end with `a`. -/
def Gives (a : α) : Prog Op Res α → Prop
  | .pure b => b = a
  | .op _ k => ∃ r, (k r).Gives a

theorem gives_bind : (p >>= f).Gives b ↔ ∃ a, p.Gives a ∧ (f a).Gives b := by
  induction p with
  | pure a => exact ⟨fun h => ⟨a, rfl, h⟩, fun ⟨_, h, hf⟩ => h ▸ hf⟩
  | op o k ih =>
    constructor
    · rintro ⟨r, h⟩
      obtain ⟨a, ha, hf⟩ := (ih r).1 h
      exact ⟨a, ⟨r, ha⟩, hf⟩
    · rintro ⟨a, ⟨r, ha⟩, hf⟩
      exact ⟨r, (ih r).2 ⟨a, ha, hf⟩⟩

/-- A fallible program that succeeds: both of its parts do. -/
theorem gives_ok_bind {E : Type} {p} {f : α → ExceptT E (Prog Op Res) β} :
    (p >>= f).run.Gives (.ok b) ↔ ∃ a, p.run.Gives (.ok a) ∧ (f a).run.Gives (.ok b) := by
  constructor
  · intro h
    obtain ⟨r, hr, hf⟩ := gives_bind.1 h
    cases r with
    | ok a => exact ⟨a, hr, hf⟩
    | error e => cases (show .error e = Except.ok b from hf)
  · rintro ⟨a, ha, hf⟩
    exact gives_bind.2 ⟨.ok a, ha, hf⟩

end Prog

/-! ## Safety of a program -/

/-- How the operations of a program act on a state, which of their choices are admitted, and
what the environment may do in between. -/
structure Rules (Op : Type) (Res : Op → Type) (X S : Type) where
  exec : (o : Op) → X → S → Res o × S
  allows : Op → X → S → Prop
  rely : S → S → Prop
  refl : ∀ s, rely s s
  trans : ∀ {s t u}, rely s t → rely t u → rely s u

variable {X S : Type}

/-- `I` holds at every moment of every execution, and `Q` at its end. -/
def Safe (R : Rules Op Res X S) (I : S → Prop) : Prog Op Res α → (α → S → Prop) → S → Prop
  | .pure a, Q, s => ∀ s', R.rely s s' → I s' ∧ Q a s'
  | .op o k, Q, s => ∀ s', R.rely s s' → I s' ∧
      ∀ x, R.allows o x s' → Safe R I (k (R.exec o x s').1) Q (R.exec o x s').2

section

variable {R : Rules Op Res X S} {I I' J : S → Prop} {p : Prog Op Res α} {f : α → Prog Op Res β}
  {Q Q' : α → S → Prop} {s : S}

theorem Safe.rely {s' : S} (h : Safe R I p Q s) (hs : R.rely s s') : Safe R I p Q s' := by
  cases p with
  | pure a | op => exact fun t ht => h t (R.trans hs ht)

theorem Safe.inv (h : Safe R I p Q s) : I s := by
  cases p with
  | pure a | op => exact (h s (R.refl s)).1

theorem safe_pure {a : α} : Safe R I (pure a) Q s ↔ ∀ s', R.rely s s' → I s' ∧ Q a s' := .rfl

theorem safe_bind {Q : β → S → Prop} :
    Safe R I (p >>= f) Q s ↔ Safe R I p (fun a s => Safe R I (f a) Q s) s := by
  induction p generalizing s with
  | pure =>
    constructor
    · exact fun h s' hs => ⟨(h.rely hs).inv, h.rely hs⟩
    · exact fun h => (h s (R.refl s)).2
  | op o k ih =>
    change (∀ s', R.rely s s' → I s' ∧ ∀ x, R.allows o x s' →
      Safe R I (k (R.exec o x s').1 >>= f) Q (R.exec o x s').2) ↔ _
    simp only [ih]
    rfl

theorem safe_call_bind {o : Op} {f : Res o → Prog Op Res β} {Q : β → S → Prop} :
    Safe R I (.call o >>= f) Q s ↔ ∀ s', R.rely s s' → I s' ∧ ∀ x, R.allows o x s' →
      Safe R I (f (R.exec o x s').1) Q (R.exec o x s').2 := .rfl

theorem Safe.mono (h : Safe R I p Q s) (hI : ∀ s, I s → I' s) (hQ : ∀ a s, Q a s → Q' a s) :
    Safe R I' p Q' s := by
  induction p generalizing s with
  | pure a => exact fun s' hs => ⟨hI s' (h s' hs).1, hQ a s' (h s' hs).2⟩
  | op o k ih =>
    exact fun s' hs => ⟨hI s' (h s' hs).1, fun x hx => ih _ ((h s' hs).2 x hx)⟩

theorem Safe.post (h : Safe R I p Q s) (hQ : ∀ a s, Q a s → Q' a s) : Safe R I p Q' s :=
  h.mono (fun _ h => h) hQ

theorem safe_ite_self {p : Prog Op Res Bool} :
    Safe R I p (fun b s => if b then J s else J s) s ↔ Safe R I p (fun _ => J) s := by
  simp only [ite_self]

/-- What is safe for two invariants is safe for both at once. -/
theorem Safe.and (h : Safe R I p Q s) (h' : Safe R I' p Q' s) :
    Safe R (fun s => I s ∧ I' s) p (fun a s => Q a s ∧ Q' a s) s := by
  induction p generalizing s with
  | pure => exact fun s' hs => ⟨⟨(h s' hs).1, (h' s' hs).1⟩, (h s' hs).2, (h' s' hs).2⟩
  | op o k ih =>
    exact fun s' hs => ⟨⟨(h s' hs).1, (h' s' hs).1⟩,
      fun x hx => ih _ ((h s' hs).2 x hx) ((h' s' hs).2 x hx)⟩

/-- What every operation of a program keeps, the program keeps. -/
theorem Safe.of_uses {U : Op → Prop} (hp : p.Uses U) (hI : ∀ s, J s → I s)
    (hrely : ∀ s s', J s → R.rely s s' → J s')
    (hexec : ∀ o x s, U o → R.allows o x s → J s → J (R.exec o x s).2) (hs : J s) :
    Safe R I p (fun _ => J) s := by
  induction p generalizing s with
  | pure => exact fun s' h => ⟨hI s' (hrely s s' hs h), hrely s s' hs h⟩
  | op o k ih =>
    intro s' h
    have hs' : J s' := hrely s s' hs h
    exact ⟨hI s' hs', fun x hx => ih _ (hp.2 _) (hexec o x s' hp.1 hx hs')⟩

/-- A program that keeps `J`, whatever it answers. -/
def Preserves (R : Rules Op Res X S) (I J : S → Prop) (p : Prog Op Res α) : Prop :=
  ∀ s, J s → Safe R I p (fun _ => J) s

theorem preserves_pure (hI : ∀ s, J s → I s) (hrely : ∀ s s', J s → R.rely s s' → J s') (a : α) :
    Preserves R I J (pure a) :=
  fun s hs => safe_pure.2 fun s' h => ⟨hI s' (hrely s s' hs h), hrely s s' hs h⟩

theorem Preserves.bind (hp : Preserves R I J p) (hf : ∀ a, Preserves R I J (f a)) :
    Preserves R I J (p >>= f) :=
  fun s hs => safe_bind.2 ((hp s hs).post hf)

theorem Safe.trivial (p : Prog Op Res α) (s : S) :
    Safe R (fun _ => True) p (fun _ _ => True) s :=
  .of_uses p.uses_all (fun _ h => h) (fun _ _ h _ => h) (fun _ _ _ _ _ h => h) .intro

/-- Two postconditions that exclude each other are not both reached: some execution ends,
when every operation admits a choice. -/
theorem Safe.not_both (hprog : ∀ o s, ∃ x, R.allows o x s) (h : Safe R I p Q s)
    (h' : Safe R I' p Q' s) : ∃ a s', Q a s' ∧ Q' a s' := by
  induction p generalizing s with
  | pure a => exact ⟨a, s, (h s (R.refl s)).2, (h' s (R.refl s)).2⟩
  | op o k ih =>
    obtain ⟨x, hx⟩ := hprog o s
    exact ih _ ((h s (R.refl s)).2 x hx) ((h' s (R.refl s)).2 x hx)

end

/-! ## Safety on an abstraction of the state -/

/-- An abstraction of the state that follows every operation and every step of the
environment. -/
structure Projects {Y C : Type} (R : Rules Op Res X S) (T : Rules Op Res Y C) (f : S → C) :
    Prop where
  exec : ∀ o x s, R.allows o x s → ∃ y, T.allows o y (f s) ∧
    T.exec o y (f s) = ((R.exec o x s).1, f (R.exec o x s).2)
  rely : ∀ s s', R.rely s s' → T.rely (f s) (f s')

variable {p : Prog Op Res α} {s : S} {exec : (o : Op) → X → S → Res o × S} {I Init J K : S → Prop}

theorem Safe.of_project {Y C : Type} {R : Rules Op Res X S} {T : Rules Op Res Y C} {f : S → C}
    (hf : Projects R T f) {I : C → Prop} {Q : α → C → Prop} (h : Safe T I p Q (f s)) :
    Safe R (fun s => I (f s)) p (fun a s => Q a (f s)) s := by
  induction p generalizing s with
  | pure => exact fun s' hs => h (f s') (hf.rely s s' hs)
  | op o k ih =>
    intro s' hs
    obtain ⟨hI, hk⟩ := h (f s') (hf.rely s s' hs)
    refine ⟨hI, fun x hx => ?_⟩
    obtain ⟨y, hy, heq⟩ := hf.exec o x s' hx
    have := hk y hy
    rw [heq] at this
    exact ih _ this

/-! ## Programs that run alone -/

namespace Prog

/-- A run without an environment; the choice at each operation is given in advance. -/
def run (exec : (o : Op) → X → S → Res o × S) (xs : Nat → X) :
    Prog Op Res α → Nat → S → α × S
  | .pure a, _, s => (a, s)
  | .op o k, n, s => (k (exec o (xs n) s).1).run exec xs (n + 1) (exec o (xs n) s).2

def along (exec : (o : Op) → X → S → Res o × S) (fine : Op → X → S → Bool) (xs : Nat → X) :
    Prog Op Res α → Nat → S → Bool
  | .pure _, _, _ => true
  | .op o k, n, s =>
    fine o (xs n) s && (k (exec o (xs n) s).1).along exec fine xs (n + 1) (exec o (xs n) s).2

/-- A run in which every operation gets the same choice. -/
def steady (exec : (o : Op) → X → S → Res o × S) (x : X) : Prog Op Res α → S → α × S
  | .pure a, s => (a, s)
  | .op o k, s => (k (exec o x s).1).steady exec x (exec o x s).2

theorem steady_bind (exec : (o : Op) → X → S → Res o × S) (x : X) (p : Prog Op Res α)
    (f : α → Prog Op Res β) (s : S) :
    (p >>= f).steady exec x s = (f (p.steady exec x s).1).steady exec x (p.steady exec x s).2 := by
  induction p generalizing s with
  | pure => rfl
  | op o k ih => exact ih _ _

/-- What every operation keeps, a run keeps. -/
theorem run_keeps {exec : (o : Op) → X → S → Res o × S} {J : S → Prop}
    (hexec : ∀ o x s, J s → J (exec o x s).2) (xs : Nat → X) (p : Prog Op Res α) (n : Nat) {s : S}
    (hs : J s) : J (p.run exec xs n s).2 := by
  induction p generalizing n s with
  | pure => exact hs
  | op o k ih => exact ih _ _ (hexec o (xs n) s hs)

end Prog

/-- The state with a mark that all operations so far met a condition. -/
def marking (exec : (o : Op) → X → S → Res o × S) (fine : Op → X → S → Bool) (o : Op) (x : X)
    (s : S × Bool) : Res o × (S × Bool) :=
  ((exec o x s.1).1, (exec o x s.1).2, s.2 && fine o x s.1)

theorem Prog.run_marking (exec : (o : Op) → X → S → Res o × S) (fine : Op → X → S → Bool)
    (xs : Nat → X) (p : Prog Op Res α) (n : Nat) (s : S) (v : Bool) :
    p.run (marking exec fine) xs n (s, v) =
      ((p.run exec xs n s).1, (p.run exec xs n s).2, v && p.along exec fine xs n s) := by
  induction p generalizing n s v with
  | pure => simp [Prog.run, Prog.along]
  | op o k ih =>
    simp only [Prog.run, Prog.along, marking]
    rw [ih]
    simp [Bool.and_assoc]

def alone (exec : (o : Op) → X → S → Res o × S) : Rules Op Res X S where
  exec := exec
  allows _ _ _ := True
  rely := Eq
  refl _ := rfl
  trans := Eq.trans

theorem Safe.run {Q : α → S → Prop} (h : Safe (alone exec) I p Q s) (xs : Nat → X) (n : Nat) :
    Q (p.run exec xs n s).1 (p.run exec xs n s).2 := by
  induction p generalizing n s with
  | pure => exact (h s rfl).2
  | op o k ih => exact ih _ ((h s rfl).2 (xs n) .intro) (n + 1)

/-- **A judgement of all runs**: a postcondition on the state with the mark is one on the run
and on whether its operations met the condition. -/
theorem Safe.along {fine : Op → X → S → Bool} {I : S × Bool → Prop} {Q : α → S × Bool → Prop}
    (h : Safe (alone (marking exec fine)) I p Q (s, true)) (xs : Nat → X) :
    Q (p.run exec xs 0 s).1 ((p.run exec xs 0 s).2, p.along exec fine xs 0 s) := by
  have hrun := h.run xs 0
  rw [Prog.run_marking] at hrun
  simpa using hrun

/-! ## Actors -/

/-- What a thread does: it waits, runs a program, or has returned for good. -/
inductive Thread (Op : Type) (Res : Op → Type) where
  | idle
  | running (p : Prog Op Res Bool)
  | returned

/-- A thread that takes up programs, in an environment. `A` are the things that can happen
besides the operations of the program being run. -/
structure Actor (Op : Type) (Res : Op → Type) (X S A : Type) where
  exec : (o : Op) → X → S → Res o × S
  take : A → S → Option (Prog Op Res Bool × S)
  env : A → S → Option S

inductive Act (X A : Type) where
  | op (x : X)
  | rest
  | take (a : A)
  | env (a : A)

variable {A : Type} {M : Actor Op Res X S A} {c c' : S × Thread Op Res}

/-- One step of the system. A program that ends with `true` ends the thread. -/
def Actor.next (M : Actor Op Res X S A) :
    Act X A → S × Thread Op Res → Option (S × Thread Op Res)
  | .op x, (s, .running (.op o k)) => some ((M.exec o x s).2, .running (k (M.exec o x s).1))
  | .rest, (s, .running (.pure b)) => some (s, if b then .returned else .idle)
  | .take a, (s, .idle) => (M.take a s).map fun r => (r.2, .running r.1)
  | .env a, (s, t) => (M.env a s).map fun s' => (s', t)
  | _, _ => none

/-- Which steps a run may take. -/
structure Guard (Op X S A : Type) where
  op : Op → X → S → Prop
  env : A → S → Prop

def Guard.free (Op X S A : Type) : Guard Op X S A := ⟨fun _ _ _ => True, fun _ _ => True⟩

def Guard.permits (G : Guard Op X S A) : Act X A → S × Thread Op Res → Prop
  | .op x, (s, .running (.op o _)) => G.op o x s
  | .env a, (s, _) => G.env a s
  | _, _ => True

variable {G : Guard Op X S A}

theorem Guard.permits_free (act : Act X A) (c : S × Thread Op Res) :
    (Guard.free Op X S A).permits act c := by
  unfold Guard.permits
  split <;> trivial

/-- The configurations that permitted steps lead to. -/
inductive Reach (M : Actor Op Res X S A) (G : Guard Op X S A) (Init : S → Prop) :
    S × Thread Op Res → Prop
  | init {s : S} (h : Init s) : Reach M G Init (s, .idle)
  | step {c c' : S × Thread Op Res} {act : Act X A} (h : Reach M G Init c)
      (permitted : G.permits act c) (next : M.next act c = some c') : Reach M G Init c'

/-- The configuration after a list of steps, each of which passes a test. -/
def Actor.run (M : Actor Op Res X S A) (test : Act X A → S × Thread Op Res → Bool) :
    List (Act X A) → S × Thread Op Res → Option (S × Thread Op Res)
  | [], c => some c
  | act :: acts, c => if test act c then (M.next act c).bind (M.run test acts) else none

theorem Reach.run {test : Act X A → S × Thread Op Res → Bool}
    (hG : ∀ act c, test act c = true → G.permits act c) {acts} (h : Reach M G Init c)
    (hrun : M.run test acts c = some c') : Reach M G Init c' := by
  induction acts generalizing c with
  | nil =>
    cases hrun
    exact h
  | cons act acts ih =>
    obtain ⟨htest, hrun⟩ := Option.ite_none_right_eq_some.1 hrun
    obtain ⟨d, hd, hrest⟩ := Option.bind_eq_some_iff.1 hrun
    exact ih (h.step (hG act c htest) hd) hrest

/-- What every single step keeps holds in every reachable configuration. -/
theorem Reach.of_step {P : S → Prop} (hinit : ∀ s, Init s → P s)
    (hexec : ∀ o x s, G.op o x s → P s → P (M.exec o x s).2)
    (htake : ∀ a s p s', M.take a s = some (p, s') → P s → P s')
    (henv : ∀ a s s', G.env a s → M.env a s = some s' → P s → P s') (h : Reach M G Init c) :
    P c.1 := by
  induction h with
  | init hs => exact hinit _ hs
  | @step c c' act _ hp hn ih =>
    obtain ⟨s, t⟩ := c
    cases act with
    | op x =>
      match t, hp, hn with
      | .running (.op o k), hp, rfl => exact hexec o x s hp ih
    | rest =>
      match t, hn with
      | .running (.pure b), rfl => exact ih
    | take a =>
      match t, hn with
      | .idle, hn =>
        obtain ⟨⟨p, s'⟩, htk, rfl⟩ := Option.map_eq_some_iff.1 hn
        exact htake a s p s' htk ih
    | env a =>
      obtain ⟨s', hstep, rfl⟩ := Option.map_eq_some_iff.1 hn
      exact henv a s s' (by cases t <;> exact hp) hstep ih

def Actor.envStep (M : Actor Op Res X S A) (G : Guard Op X S A) (s s' : S) : Prop :=
  ∃ a, G.env a s ∧ M.env a s = some s'

/-- The rules a program of the actor runs under. -/
def Actor.rules (M : Actor Op Res X S A) (G : Guard Op X S A) : Rules Op Res X S where
  exec := M.exec
  allows := G.op
  rely := Relation.ReflTransGen (M.envStep G)
  refl _ := .refl
  trans := .trans

/-- What makes an invariant: `J` holds while the thread waits, `K` once it has returned, and
every program it takes up is safe for `I` and ends in one of the two. -/
structure Actor.Keeps (M : Actor Op Res X S A) (G : Guard Op X S A) (Init I J K : S → Prop) :
    Prop where
  init : ∀ s, Init s → J s
  idle : ∀ s, J s → I s
  env : ∀ s s', J s → M.envStep G s s' → J s'
  take : ∀ s s' a p, J s → M.take a s = some (p, s') →
    Safe (M.rules G) I p (fun b s => if b then K s else J s) s'
  ended : ∀ s, K s → I s
  endedEnv : ∀ s s', K s → M.envStep G s s' → K s'

/-- What an invariant says about each state of the thread. -/
def Actor.Holds (M : Actor Op Res X S A) (G : Guard Op X S A) (I J K : S → Prop) :
    S × Thread Op Res → Prop
  | (s, .idle) => J s
  | (s, .running p) => Safe (M.rules G) I p (fun b s => if b then K s else J s) s
  | (s, .returned) => K s

theorem Actor.Keeps.step (hM : M.Keeps G Init I J K) {act} (h : M.Holds G I J K c)
    (hp : G.permits act c) (hn : M.next act c = some c') : M.Holds G I J K c' := by
  obtain ⟨s, t⟩ := c
  cases act with
  | op x =>
    cases t with
    | running p =>
      cases p with
      | pure => cases hn
      | op =>
        cases hn
        exact (h s .refl).2 x hp
    | idle | returned => cases hn
  | rest =>
    cases t with
    | running p =>
      cases p with
      | pure b =>
        cases hn
        have hend := (h s .refl).2
        cases b with
        | true | false => exact hend
      | op => cases hn
    | idle | returned => cases hn
  | take a =>
    cases t with
    | idle =>
      obtain ⟨⟨p, s'⟩, htake, rfl⟩ := Option.map_eq_some_iff.1 hn
      exact hM.take s s' a p h htake
    | running p => cases p <;> cases hn
    | returned => cases hn
  | env a =>
    obtain ⟨s', henv, rfl⟩ := Option.map_eq_some_iff.1 hn
    have hstep : M.envStep G s s' := ⟨a, hp, henv⟩
    cases t with
    | idle => exact hM.env s s' h hstep
    | running => exact .rely h (.single hstep)
    | returned => exact hM.endedEnv s s' h hstep

/-- **The invariant of a run.** -/
theorem Reach.holds (hM : M.Keeps G Init I J K) (h : Reach M G Init c) : M.Holds G I J K c := by
  induction h with
  | init hs => exact hM.init _ hs
  | step _ hp hn ih => exact hM.step ih hp hn

theorem Reach.inv (hM : M.Keeps G Init I J K) {s : S} {t} (h : Reach M G Init (s, t)) : I s := by
  have hholds := h.holds hM
  cases t with
  | idle => exact hM.idle s hholds
  | running => exact Safe.inv hholds
  | returned => exact hM.ended s hholds

end Program
