import PrivateVm.Basic.Program

set_option autoImplicit false

/-! # Methods of a locked object

A method of an object whose lock it holds is a program of calls (`Basic/Program.lean`) with the
fields `S` as a state and errors `ε`. What has been written to the fields before an error stays
written. `Does` judges all runs of a method at once, whatever the calls answer.
-/

namespace Program

abbrev Method (Op : Type) (Res : Op → Type) (ε S α : Type) : Type :=
  ExceptT ε (StateT S (Prog Op Res)) α

variable {Op : Type} {Res : Op → Type} {ε S X H α β : Type}

namespace Method

/-- The call of an operation outside the object. -/
def invoke (o : Op) : Method Op Res ε S (Res o) :=
  ExceptT.mk fun s => do
    let r ← Prog.call o
    return (.ok r, s)

/-- The run of a method: what it returns with the fields it leaves, and the state outside. -/
def outcome (exec : (o : Op) → X → H → Res o × H) (xs : Nat → X) (m : Method Op Res ε S α) (s : S)
    (h : H) : (Except ε α × S) × H :=
  (m.run.run s).run exec xs 0 h

def along (exec : (o : Op) → X → H → Res o × H) (fine : Op → X → H → Bool) (xs : Nat → X)
    (m : Method Op Res ε S α) (s : S) (h : H) : Bool :=
  (m.run.run s).along exec fine xs 0 h

/-- The judgement of all runs of a method. -/
def Does (exec : (o : Op) → X → H → Res o × H) (m : Method Op Res ε S α)
    (Q : Except ε α → S → H → Prop) (s : S) (h : H) : Prop :=
  Safe (alone exec) (fun _ => True) (m.run.run s) (fun r h => Q r.1 r.2 h) h

variable {exec : (o : Op) → X → H → Res o × H} {o : Op} {s : S} {h : H} {a : α} {e : ε} {g : S → S}
  {r : Except ε α} {m : Method Op Res ε S α} {f : α → Method Op Res ε S β}
  {Q : Except ε α → S → H → Prop} {R : Except ε β → S → H → Prop}

theorem Does.outcome (hm : Does exec m Q s h) (xs : Nat → X) :
    Q (m.outcome exec xs s h).1.1 (m.outcome exec xs s h).1.2 (m.outcome exec xs s h).2 :=
  Safe.run hm xs 0

theorem Does.post {Q Q' : Except ε α → S → H → Prop}
    (hm : Does exec m Q s h) (hQ : ∀ r s h, Q r s h → Q' r s h) : Does exec m Q' s h :=
  Safe.post hm fun r => hQ r.1 r.2

theorem does_pure (hQ : Q (.ok a) s h) : Does exec (pure a) Q s h := by
  rintro _ rfl
  exact ⟨trivial, hQ⟩

theorem does_throw (hQ : Q (.error e) s h) : Does exec (throw e : Method Op Res ε S α) Q s h := by
  rintro _ rfl
  exact ⟨trivial, hQ⟩

/-- What follows a method runs only when this has returned no error. -/
def Then (exec : (o : Op) → X → H → Res o × H) (f : α → Method Op Res ε S β)
    (Q : Except ε β → S → H → Prop) : Except ε α → S → H → Prop
  | .ok a, s, h => Does exec (f a) Q s h
  | .error e, s, h => Q (.error e) s h

theorem then_ok :
    Then exec f R (.ok a) s h = Does exec (f a) R s h := rfl

theorem does_bind (hm : Does exec m (Then exec f R) s h) : Does exec (m >>= f) R s h := by
  refine safe_bind.2 (.post hm ?_)
  rintro ⟨r, s'⟩ h' hR
  cases r with
  | ok => exact hR
  | error =>
    rintro _ rfl
    exact ⟨trivial, hR⟩

theorem does_get_bind {f : S → Method Op Res ε S β}
    (hf : Does exec (f s) R s h) : Does exec (get >>= f) R s h := by
  refine does_bind ?_
  rintro _ rfl
  exact ⟨trivial, hf⟩

theorem does_modify {Q : Except ε PUnit → S → H → Prop} (hQ : Q (.ok ⟨⟩) (g s) h) :
    Does exec (modify g) Q s h := by
  rintro _ rfl
  exact ⟨trivial, hQ⟩

theorem does_modify_bind {f : PUnit → Method Op Res ε S β} (hf : Does exec (f ⟨⟩) R (g s) h) :
    Does exec (modify g >>= f) R s h := by
  refine does_bind ?_
  rintro _ rfl
  exact ⟨trivial, hf⟩

theorem does_invoke_bind {f : Res o → Method Op Res ε S β}
    (hf : ∀ x, Does exec (f (exec o x h).1) R s (exec o x h).2) :
    Does exec (invoke o >>= f) R s h := by
  refine does_bind ?_
  rintro _ rfl
  refine ⟨trivial, fun x _ => ?_⟩
  rintro _ rfl
  exact ⟨trivial, hf x⟩

theorem does_invoke {Q : Except ε (Res o) → S → H → Prop}
    (hQ : ∀ x, Q (.ok (exec o x h).1) s (exec o x h).2) : Does exec (invoke o) Q s h := by
  rintro _ rfl
  refine ⟨trivial, fun x _ => ?_⟩
  rintro _ rfl
  exact ⟨trivial, hQ x⟩

def check (r : Except ε α) : Method Op Res ε S α := ExceptT.mk (pure r)

theorem does_check (hQ : Q r s h) : Does exec (check r) Q s h := by
  rintro _ rfl
  exact ⟨trivial, hQ⟩

theorem does_check_bind (herr : ∀ e, r = .error e → R (.error e) s h)
    (hok : ∀ a, r = .ok a → Does exec (f a) R s h) : Does exec (check r >>= f) R s h := by
  refine does_bind ?_
  rintro _ rfl
  cases r with
  | error e => exact ⟨trivial, herr e rfl⟩
  | ok a => exact ⟨trivial, hok a rfl⟩

theorem does_passed_bind (hr : r = .ok a) (hf : Does exec (f a) R s h) :
    Does exec (check r >>= f) R s h := by
  subst hr
  refine does_check_bind (fun e he => by cases he) fun b hb => ?_
  cases hb
  exact hf

/-- A method whose error is looked at, as a deferred function does. -/
def settle {ε' : Type} (m : Method Op Res ε S α) : Method Op Res ε' S (Except ε α) :=
  ExceptT.mk fun s => do
    let (r, s) ← m.run.run s
    return (.ok r, s)

theorem does_settle_bind {ε' : Type} {f : Except ε α → Method Op Res ε' S β}
    {Q : Except ε' β → S → H → Prop} (hm : Does exec m (fun r s h => Does exec (f r) Q s h) s h) :
    Does exec (settle m >>= f) Q s h := by
  refine does_bind (safe_bind.2 (.post hm ?_))
  rintro ⟨r, s'⟩ h' hf _ rfl
  exact ⟨trivial, hf⟩

/-- A judgement of the run in which every call gets the same choice. -/
theorem Does.steady {x : X} (hm : Does (fun o (_ : Unit) h => exec o x h) m Q s h) :
    Q (m.outcome exec (fun _ => x) s h).1.1 (m.outcome exec (fun _ => x) s h).1.2
      (m.outcome exec (fun _ => x) s h).2 := by
  have hsame : ∀ (p : Prog Op Res (Except ε α × S)) n h,
      p.run (fun o _ => exec o x) (fun _ => ()) n h = p.run exec (fun _ => x) n h := by
    intro p
    induction p with
    | pure => exact fun _ _ => rfl
    | op o k ih => exact fun n h => ih _ (n + 1) _
  have hrun := hm.outcome fun _ => ()
  unfold Method.outcome at hrun ⊢
  rwa [hsame] at hrun

/-! ## Another state outside -/

section

variable {X' H' : Type} {exec' : (o : Op) → X' → H' → Res o × H'} {view : H' → H}

/-- Every call of the second outside is, in a view of it, a call of the first. -/
def Refines (exec : (o : Op) → X → H → Res o × H) (exec' : (o : Op) → X' → H' → Res o × H')
    (view : H' → H) : Prop :=
  ∀ o x' h', ∃ x, exec o x (view h') = ((exec' o x' h').1, view (exec' o x' h').2)

theorem Refines.refl (exec : (o : Op) → X → H → Res o × H) : Refines exec exec id :=
  fun _ x _ => ⟨x, rfl⟩

/-- A judgement of all runs holds of the runs with an outside that refines the first. -/
theorem Does.refine {h' : H'} (href : Refines exec exec' view) (hm : Does exec m Q s (view h')) :
    Does exec' m (fun r s h' => Q r s (view h')) s h' := by
  unfold Does at hm ⊢
  generalize m.run.run s = p at hm
  induction p generalizing h' with
  | pure =>
    rintro _ rfl
    exact ⟨trivial, (hm _ rfl).2⟩
  | op o k ih =>
    rintro _ rfl
    refine ⟨trivial, fun x' _ => ih _ ?_⟩
    -- the call of the view that answers the same
    obtain ⟨x, hx⟩ := href o x' h'
    have hk := (hm _ rfl).2 x trivial
    simp only [alone, hx] at hk
    exact hk

/-- Where the calls of the second outside are, in the view, those of the first with the same
answers, so are the runs. -/
theorem outcome_view {exec' : (o : Op) → X → H' → Res o × H'}
    (hview : ∀ o x h', exec o x (view h') = ((exec' o x h').1, view (exec' o x h').2))
    (xs : Nat → X) (m : Method Op Res ε S α) (s : S) (h' : H') :
    m.outcome exec xs s (view h') =
      ((m.outcome exec' xs s h').1, view (m.outcome exec' xs s h').2) := by
  unfold Method.outcome
  generalize m.run.run s = p
  generalize 0 = n
  induction p generalizing n h' with
  | pure => rfl
  | op o k ih =>
    simp only [Prog.run, hview]
    exact ih _ _ _

end

/-! ## The calls of a method -/

/-- Every call of a method, whatever the fields and the answers are, is in `U`. -/
def Uses (U : Op → Prop) (m : Method Op Res ε S α) : Prop := ∀ s, (m.run.run s).Uses U

section

variable {U : Op → Prop}

theorem uses_pure (a : α) : Uses U (pure a : Method Op Res ε S α) := fun _ => trivial

theorem uses_throw (e : ε) : Uses U (throw e : Method Op Res ε S α) := fun _ => trivial

theorem uses_check (r : Except ε α) : Uses U (check r : Method Op Res ε S α) := fun _ => trivial

theorem uses_get : Uses U (get : Method Op Res ε S S) := fun _ => trivial

theorem uses_modify (g : S → S) : Uses U (modify g : Method Op Res ε S PUnit) := fun _ => trivial

theorem uses_invoke (ho : U o) : Uses U (invoke o : Method Op Res ε S (Res o)) :=
  fun _ => ⟨ho, fun _ => trivial⟩

theorem uses_bind (hm : Uses U m) (hf : ∀ a, Uses U (f a)) : Uses U (m >>= f) := by
  intro s
  refine .bind (hm s) ?_
  rintro ⟨r, s'⟩
  cases r with
  | ok a => exact hf a s'
  | error => trivial

theorem uses_settle {ε' : Type} (hm : Uses U m) :
    Uses U (settle m : Method Op Res ε' S (Except ε α)) :=
  fun s => .bind (hm s) fun _ => trivial

/-- What the calls in `U` keep, a method of such calls keeps. -/
theorem Uses.does {P : H → Prop} (hm : Uses U m) (hcall : ∀ o x h, U o → P h → P (exec o x h).2)
    (s : S) {h : H} (hP : P h) : Does exec m (fun _ _ h => P h) s h := by
  refine .mono (.of_uses (hm s) (fun _ _ => trivial) ?_ ?_ hP) (fun _ h => h)
    fun _ _ h => h
  · rintro h _ hP rfl
    exact hP
  · exact fun o x h ho _ => hcall o x h ho

theorem does_of_calls {P : H → Prop} (hcall : ∀ o x h, P h → P (exec o x h).2)
    (m : Method Op Res ε S α) (s : S) {h : H} (hP : P h) : Does exec m (fun _ _ h => P h) s h := by
  have hall : ∀ p : Prog Op Res (Except ε α × S), p.Uses fun _ => True := by
    intro p
    induction p with
    | pure => trivial
    | op o k ih => exact ⟨trivial, ih⟩
  exact Uses.does (fun s => hall (m.run.run s)) (fun o x h _ => hcall o x h) s hP

end

/-! ## What a method returns -/

/-- Whatever the fields, the state outside and the answers are, what a method returns meets
`P`. -/
def Returns (exec : (o : Op) → X → H → Res o × H) (m : Method Op Res ε S α) (P : α → Prop) : Prop :=
  ∀ s h, Does exec m (fun r _ _ => ∀ a, r = .ok a → P a) s h

section

variable {P : α → Prop} {P' : β → Prop}

theorem returns_pure (h : P a) : Returns exec (pure a : Method Op Res ε S α) P :=
  fun _ _ => does_pure fun _ hb => (Except.ok.inj hb) ▸ h

theorem returns_check (h : ∀ a, r = .ok a → P a) : Returns exec (check r : Method Op Res ε S α) P :=
  fun _ _ => does_check h

theorem returns_any (m : Method Op Res ε S α) : Returns exec m fun _ => True :=
  fun s _ => (does_of_calls (P := fun _ => True) (fun _ _ _ _ => trivial) m s trivial).post
    fun _ _ _ _ _ _ => trivial

theorem Returns.bind (hm : Returns exec m P) (hf : ∀ a, P a → Returns exec (f a) P') :
    Returns exec (m >>= f) P' := by
  intro s h
  refine does_bind ((hm s h).post fun r s' h' hr => ?_)
  cases r with
  | ok a => exact hf a (hr a rfl) s' h'
  | error => exact fun _ h => by cases h

/-- What comes before does not matter. -/
theorem returns_after (hf : ∀ a, Returns exec (f a) P') : Returns exec (m >>= f) P' :=
  (returns_any m).bind fun a _ => hf a

end

/-! ## Runs whose calls meet a condition -/

/-- A judgement of all runs, on the state outside with a mark, is one of the run and of whether
its calls met the condition. -/
theorem Does.along {fine : Op → X → H → Bool} {Q : Except ε α → S → H × Bool → Prop}
    (hm : Does (marking exec fine) m Q s (h, true)) (xs : Nat → X) :
    Q (m.outcome exec xs s h).1.1 (m.outcome exec xs s h).1.2
      ((m.outcome exec xs s h).2, m.along exec fine xs s h) :=
  Safe.along hm xs

/-- A judgement of all runs, whatever their calls are: a mark that is lost stays so. -/
theorem does_unmarked {fine : Op → X → H → Bool} {Q : Except ε α → S → H × Bool → Prop} {v}
    (hm : Does exec m (fun r s h => ∀ v', (v' = true → v = true) → Q r s (h, v')) s h) :
    Does (marking exec fine) m Q s (h, v) := by
  unfold Does at hm ⊢
  generalize m.run.run s = p at hm
  induction p generalizing h v with
  | pure =>
    rintro _ rfl
    exact ⟨trivial, (hm _ rfl).2 v id⟩
  | op o k ih =>
    rintro _ rfl
    refine ⟨trivial, fun x _ => ih _ (.post ((hm _ rfl).2 x trivial) fun r h hQ v' hv' => ?_)⟩
    exact hQ v' fun hv => (Bool.and_eq_true_iff.1 (hv' hv)).1

/-- A call that meets the condition whatever it answers. -/
theorem does_fine_bind {fine : Op → X → H → Bool} {f : Res o → Method Op Res ε S β}
    {Q : Except ε β → S → H × Bool → Prop} {v} (ho : ∀ x, fine o x h = true)
    (hf : ∀ x, Does (marking exec fine) (f (exec o x h).1) Q s ((exec o x h).2, v)) :
    Does (marking exec fine) (invoke o >>= f) Q s (h, v) := by
  refine does_invoke_bind fun x => ?_
  simp only [marking, ho, Bool.and_true]
  exact hf x

/-- The judgement of the runs in which every call meets a condition. It is one of all runs, on
the state outside with a mark (`marking`). -/
def Along (exec : (o : Op) → X → H → Res o × H) (fine : Op → X → H → Bool)
    (m : Method Op Res ε S α) (Q : Except ε α → S → H → Prop) (s : S) (h : H) : Prop :=
  Does (marking exec fine) m (fun r s h => h.2 = true → Q r s h.1) s (h, true)

section

variable {fine : Op → X → H → Bool}

theorem Along.outcome
    (hm : Along exec fine m Q s h) {xs : Nat → X} (hfine : m.along exec fine xs s h = true) :
    Q (m.outcome exec xs s h).1.1 (m.outcome exec xs s h).1.2 (m.outcome exec xs s h).2 :=
  Safe.along hm xs hfine

/-- With a condition that every call meets, all runs are judged. -/
theorem Along.outcome_of_always (hm : Along exec (fun _ _ _ => true) m Q s h) (xs : Nat → X) :
    Q (m.outcome exec xs s h).1.1 (m.outcome exec xs s h).1.2 (m.outcome exec xs s h).2 := by
  have halways : ∀ (p : Prog Op Res (Except ε α × S)) n h,
      p.along exec (fun _ _ _ => true) xs n h = true := by
    intro p
    induction p with
    | pure => exact fun _ _ => rfl
    | op o k ih => exact fun n h => ih _ (n + 1) _
  exact hm.outcome (halways _ 0 h)

/-- After a call that does not meet the condition there is nothing to show. -/
theorem does_of_marked (m : Method Op Res ε S α) (Q : Except ε α → S → H → Prop) (s : S) (h : H) :
    Does (marking exec fine) m (fun r s h => h.2 = true → Q r s h.1) s (h, false) := by
  unfold Does
  generalize m.run.run s = p
  induction p generalizing h with
  | pure =>
    rintro _ rfl
    exact ⟨trivial, nofun⟩
  | op o k ih =>
    rintro _ rfl
    exact ⟨trivial, fun x _ => ih _ _⟩

theorem along_pure (hQ : Q (.ok a) s h) : Along exec fine (pure a) Q s h :=
  does_pure fun _ => hQ

theorem along_throw (hQ : Q (.error e) s h) :
    Along exec fine (throw e : Method Op Res ε S α) Q s h :=
  does_throw fun _ => hQ

theorem along_get_bind {f : S → Method Op Res ε S β}
    (hf : Along exec fine (f s) R s h) : Along exec fine (get >>= f) R s h :=
  does_get_bind hf

theorem along_modify {Q : Except ε PUnit → S → H → Prop}
    (hQ : Q (.ok ⟨⟩) (g s) h) : Along exec fine (modify g) Q s h :=
  does_modify fun _ => hQ

theorem along_modify_bind {f : PUnit → Method Op Res ε S β}
    (hf : Along exec fine (f ⟨⟩) R (g s) h) : Along exec fine (modify g >>= f) R s h :=
  does_modify_bind hf

theorem along_invoke_bind {f : Res o → Method Op Res ε S β}
    (hf : ∀ x, fine o x h = true → Along exec fine (f (exec o x h).1) R s (exec o x h).2) :
    Along exec fine (invoke o >>= f) R s h := by
  refine does_invoke_bind fun x => ?_
  cases hx : fine o x h with
  | true =>
    simp only [marking, hx]
    exact hf x hx
  | false =>
    simp only [marking, hx]
    exact does_of_marked _ _ _ _

/-- What follows a method, when every call so far has met the condition. -/
theorem along_bind
    (hm : Along exec fine m (fun r s h => match r with
      | .ok a => Along exec fine (f a) R s h
      | .error e => R (.error e) s h) s h) : Along exec fine (m >>= f) R s h := by
  refine does_bind (hm.post ?_)
  rintro r s ⟨h, v⟩ hr
  cases v with
  | true =>
    cases r with
    | ok => exact hr rfl
    | error => exact fun _ => hr rfl
  | false =>
    cases r with
    | ok => exact does_of_marked _ _ _ _
    | error => exact nofun

end

end Method

end Program
