import PrivateVm.Basic.FileSystem

set_option autoImplicit false

/-! # Programs of system calls that stop at the first error

`Yields` judges all runs of an `Action`, whatever calls fail: the postcondition speaks of the
result, of the file system and of a mark that no call failed where a failure does harm. An action
that only reads (`Reads`) has a value on each file system (`quietly`).
-/

namespace FileSystem

open Checked Program

variable {ε ε' α β : Type}

abbrev Action (ε α : Type) : Type := ExceptT ε (Prog Call Call.Res) α

def attempt (c : Call) : Prog Call Call.Res (Except Errno c.Val) := Prog.call c

/-- One call, with what makes an error of its failure. -/
def sys (c : Call) (wrap : Errno → ε) : Action ε c.Val :=
  ExceptT.mk do
    let r ← attempt c
    return r.mapError wrap

def check (r : Except ε α) : Action ε α := ExceptT.mk (pure r)

def mapError (f : ε → ε') (p : Action ε α) : Action ε' α :=
  ExceptT.mk do
    let r ← p.run
    return r.mapError f

def ignore (c : Call) : Prog Call Call.Res Unit := do
  let _ ← attempt c
  return ()

/-- What is done when an action fails, and the error it then has. -/
def onError (p : Action ε α) (undo : ε → Prog Call Call.Res ε) : Action ε α :=
  ExceptT.mk do
    let r ← p.run
    match r with
    | .ok a => return .ok a
    | .error e =>
      let e ← undo e
      return .error e

def each (f : α → Action ε Unit) : List α → Action ε Unit
  | [] => pure ()
  | a :: l => do
      f a
      each f l

/-! ## Judging all runs -/

/-- A call fails only where this does no harm. -/
def fine (harm : Call → FS → Bool) (c : Call) (x : Fault) (fs : FS) : Bool :=
  !(x.errno.isSome && harm c fs)

/-- The judgement of all runs of a program of calls. -/
def Yields (harm : Call → FS → Bool) (p : Prog Call Call.Res α) (Q : α → FS → Bool → Prop)
    (fs : FS) (v : Bool) : Prop :=
  Safe (alone (marking FS.exec (fine harm))) (fun _ => True) p (fun a s => Q a s.1 s.2) (fs, v)

/-- The run of a program, and whether calls failed only where this does no harm. -/
def runCalls (p : Prog Call Call.Res α) (xs : Nat → Fault) (fs : FS) : α × FS :=
  p.run FS.exec xs 0 fs

def harmless (harm : Call → FS → Bool) (p : Prog Call Call.Res α) (xs : Nat → Fault) (fs : FS) :
    Bool :=
  p.along FS.exec (fine harm) xs 0 fs

section

variable {harm : Call → FS → Bool} {fs : FS} {v : Bool} {p : Prog Call Call.Res α}
  {Q : α → FS → Bool → Prop} {a : α} {f : α → Action ε β} {wrap : Errno → ε}

theorem Yields.along (h : Yields harm p Q fs true) (xs : Nat → Fault) :
    Q (runCalls p xs fs).1 (runCalls p xs fs).2 (harmless harm p xs fs) :=
  Safe.along h xs

/-- After a failure that did harm the mark stays. -/
theorem yields_marked (p : Prog Call Call.Res α) :
    Yields harm p (fun _ _ v => v = false) fs false := by
  induction p generalizing fs with
  | pure =>
    rintro _ rfl
    exact ⟨trivial, rfl⟩
  | op c k ih =>
    rintro _ rfl
    exact ⟨trivial, fun x _ => ih _⟩

/-- What does not speak of the mark holds wherever failures do harm. -/
theorem Yields.unmarked {harm' : Call → FS → Bool} {v'} {P : α → FS → Prop}
    (h : Yields harm p (fun a fs _ => P a fs) fs v) :
    Yields harm' p (fun a fs _ => P a fs) fs v' := by
  induction p generalizing fs v v' with
  | pure =>
    rintro _ rfl
    exact ⟨trivial, (h _ rfl).2⟩
  | op c k ih =>
    rintro _ rfl
    exact ⟨trivial, fun x _ => ih _ ((h _ rfl).2 x trivial)⟩

/-- No call is made to fail. -/
theorem harmless_of_quiet {xs : Nat → Fault} (hxs : ∀ n, (xs n).errno = none) :
    harmless harm p xs fs = true := by
  unfold harmless
  generalize 0 = n
  induction p generalizing fs n with
  | pure => rfl
  | op c k ih =>
    have hfine : fine harm c (xs n) fs = true := by
      rw [fine, hxs]
      rfl
    rw [Prog.along, hfine]
    exact ih _ _

theorem yields_pure (h : Q a fs v) : Yields harm (pure a) Q fs v := by
  rintro _ rfl
  exact ⟨trivial, h⟩

theorem yields_bind {f : α → Prog Call Call.Res β} {Q : β → FS → Bool → Prop}
    (h : Yields harm p (fun a fs v => Yields harm (f a) Q fs v) fs v) :
    Yields harm (p >>= f) Q fs v :=
  safe_bind.2 h

theorem Yields.post {Q' : α → FS → Bool → Prop} (h : Yields harm p Q fs v)
    (hQ : ∀ a fs v, Q a fs v → Q' a fs v) : Yields harm p Q' fs v :=
  Safe.post h fun a s => hQ a s.1 s.2

variable {c : Call}

theorem yields_attempt {f : c.Res → Prog Call Call.Res β} {Q : β → FS → Bool → Prop}
    (hdone : ∀ short, Yields harm (f (fs.perform short c).1) Q (fs.perform short c).2 v)
    (hfail : ∀ e short, Yields harm (f (.error e)) Q (fs.interrupted short c)
      (v && !harm c fs)) : Yields harm (attempt c >>= f) Q fs v := by
  rintro _ rfl
  refine ⟨trivial, fun x _ => ?_⟩
  obtain ⟨_ | e, short⟩ := x
  · have hmark : (v && fine harm c ⟨none, short⟩ fs) = v := Bool.and_true v
    change Yields harm (f (fs.perform short c).1) Q (fs.perform short c).2 (v && fine harm c _ fs)
    rw [hmark]
    exact hdone short
  · exact hfail e short

theorem yields_ignore {Q : Unit → FS → Bool → Prop} (hdone : ∀ short, Q () (fs.perform short c).2 v)
    (hfail : ∀ short, Q () (fs.interrupted short c) (v && !harm c fs)) :
    Yields harm (ignore c) Q fs v :=
  yields_attempt (fun short => yields_pure (hdone short)) fun _ short => yields_pure (hfail short)

/-- Go on after a success, stop after an error. -/
def Next (harm : Call → FS → Bool) (f : α → Action ε β) (Q : Except ε β → FS → Bool → Prop) :
    Except ε α → FS → Bool → Prop
  | .ok a, fs, v => Yields harm (f a).run Q fs v
  | .error e, fs, v => Q (.error e) fs v

theorem yields_then {p} {Q : Except ε β → FS → Bool → Prop}
    (h : Yields harm p.run (Next harm f Q) fs v) : Yields harm (p >>= f).run Q fs v := by
  refine yields_bind (h.post fun r fs v hr => ?_)
  cases r with
  | ok => exact hr
  | error => exact yields_pure hr

theorem yields_sys {Q : Except ε c.Val → FS → Bool → Prop}
    (hdone : ∀ short, Q ((fs.perform short c).1.mapError wrap) (fs.perform short c).2 v)
    (hfail : ∀ e short, Q (.error (wrap e)) (fs.interrupted short c) (v && !harm c fs)) :
    Yields harm (sys c wrap).run Q fs v :=
  yields_attempt (fun short => yields_pure (hdone short)) fun e short => yields_pure (hfail e short)

/-- A call that succeeds unless it is made to fail. -/
theorem yields_sys_then {f : c.Val → Action ε β} {a} {fs' : FS} {Q : Except ε β → FS → Bool → Prop}
    (hc : ∀ short, fs.perform short c = (.ok a, fs')) (hthen : Yields harm (f a).run Q fs' v)
    (hfail : ∀ e short, Q (.error (wrap e)) (fs.interrupted short c) (v && !harm c fs)) :
    Yields harm (sys c wrap >>= f).run Q fs v := by
  refine yields_then (yields_sys (fun short => ?_) hfail)
  rwa [hc]

theorem yields_check_then {r} {Q : Except ε β → FS → Bool → Prop} (hr : r = .ok a)
    (hthen : Yields harm (f a).run Q fs v) : Yields harm (check r >>= f).run Q fs v := by
  subst hr
  exact yields_then (yields_pure hthen)

theorem yields_mapError {p} {wrap : ε' → ε} {Q : Except ε α → FS → Bool → Prop}
    (h : Yields harm p.run (fun r => Q (r.mapError wrap)) fs v) :
    Yields harm (mapError wrap p).run Q fs v :=
  yields_bind (h.post fun _ _ _ => yields_pure)

theorem yields_onError {p} {undo : ε → Prog Call Call.Res ε} {Q : Except ε α → FS → Bool → Prop}
    (h : Yields harm p.run (fun r fs v => match r with
      | .ok a => Q (.ok a) fs v
      | .error e => Yields harm (undo e) (fun e => Q (.error e)) fs v) fs v) :
    Yields harm (onError p undo).run Q fs v := by
  refine yields_bind (h.post fun r fs v hr => ?_)
  cases r with
  | ok => exact yields_pure hr
  | error => exact yields_bind (hr.post fun _ fs v => yields_pure)

end

/-! ## Actions that only read -/

/-- The result of an action when no call is made to fail, and the file system after it. -/
def quietRun (p : Action ε α) (fs : FS) : Except ε α × FS := p.run.steady FS.exec {} fs

def quietly (p : Action ε α) (fs : FS) : Except ε α := (quietRun p fs).1

/-- The action changes nothing, and gives its value or, after a failure, an error. -/
structure Reads (p : Action ε α) : Prop where
  still : ∀ fs, (quietRun p fs).2 = fs
  faults : ∀ (harm : Call → FS → Bool) (fs : FS) (v g : Bool),
    (∀ c, c.readOnly = true → harm c fs = g) → Yields harm p.run (fun r fs' v' => fs' = fs ∧
      (r = quietly p fs ∧ v' = v ∨ ∃ e, r = .error e ∧ v' = (v && !g))) fs v

theorem quietRun_bind (p : Action ε α) (f : α → Action ε β) (fs : FS) :
    quietRun (p >>= f) fs = match quietRun p fs with
      | (.ok a, fs') => quietRun (f a) fs'
      | (.error e, fs') => (.error e, fs') := by
  have h := Prog.steady_bind FS.exec {} p.run (ExceptT.bindCont f) fs
  refine h.trans ?_
  simp only [quietRun]
  generalize Prog.steady FS.exec {} p.run fs = r
  obtain ⟨_ | _, _⟩ := r <;> rfl

variable {p : Action ε α} {f : α → Action ε β} {b : β} {wrap : Errno → ε} {a : α}
  {harm : Call → FS → Bool} {v : Bool} {Q : Except ε β → FS → Bool → Prop}

theorem quietly_bind (hp : Reads p) (f : α → Action ε β) (fs : FS) :
    quietly (p >>= f) fs = quietly p fs >>= fun a => quietly (f a) fs := by
  have hstill := hp.still fs
  unfold quietly
  rw [quietRun_bind]
  generalize quietRun p fs = r at hstill
  obtain ⟨_ | _, _⟩ := r
  · rfl
  · subst hstill
    rfl

variable {fs : FS} {c : Call}

theorem quietly_bind_eq_ok (hp : Reads p) :
    quietly (p >>= f) fs = .ok b ↔ ∃ a, quietly p fs = .ok a ∧ quietly (f a) fs = .ok b := by
  rw [quietly_bind hp]
  exact Checked.bind_eq_ok

@[simp] theorem quietly_check (r : Except ε α) (fs : FS) : quietly (check r) fs = r := rfl

@[simp] theorem quietly_sys (c : Call) (wrap : Errno → ε) (fs : FS) :
    quietly (sys c wrap) fs = (fs.perform 0 c).1.mapError wrap := rfl

@[simp] theorem quietly_mapError (f : ε → ε') (p : Action ε α) (fs : FS) :
    quietly (mapError f p) fs = (quietly p fs).mapError f := by
  have h := Prog.steady_bind FS.exec {} p.run (fun r => pure (r.mapError f)) fs
  exact congrArg Prod.fst h

theorem quietly_sys_eq_ok {a} : quietly (sys c wrap) fs = .ok a ↔ (fs.perform 0 c).1 = .ok a :=
  mapError_eq_ok

theorem quietly_mapError_eq_ok {f : ε → ε'} :
    quietly (mapError f p) fs = .ok a ↔ quietly p fs = .ok a := by
  rw [quietly_mapError, mapError_eq_ok]

theorem reads_check (r : Except ε α) : Reads (check r) :=
  ⟨fun _ => rfl, fun _ _ _ _ _ => yields_pure ⟨rfl, .inl ⟨rfl, rfl⟩⟩⟩

theorem reads_pure (a : α) : Reads (pure a : Action ε α) := reads_check (.ok a)

theorem reads_throw (e : ε) : Reads (throw e : Action ε α) := reads_check (.error e)

theorem reads_sys (hc : c.readOnly = true) (wrap : Errno → ε) : Reads (sys c wrap) where
  still fs := FS.perform_readOnly hc fs 0
  faults harm fs v g hg := by
    refine yields_sys (fun short => ⟨FS.perform_readOnly hc fs short, .inl ⟨?_, rfl⟩⟩)
      fun e short => ⟨FS.interrupted_readOnly hc fs short, .inr ⟨_, rfl, by rw [hg c hc]⟩⟩
    rw [FS.perform_short hc]
    rfl

theorem quietly_sys_bind {f : c.Val → Action ε β} (hc : c.readOnly = true) :
    quietly (sys c wrap >>= f) fs = .ok b ↔
      ∃ a, (fs.perform 0 c).1 = .ok a ∧ quietly (f a) fs = .ok b := by
  rw [quietly_bind_eq_ok (reads_sys hc wrap)]
  simp only [quietly_sys_eq_ok]

theorem quietly_check_bind {r} :
    quietly (check r >>= f) fs = .ok b ↔ ∃ a, r = .ok a ∧ quietly (f a) fs = .ok b :=
  quietly_bind_eq_ok (reads_check r)

theorem reads_bind (hp : Reads p) (hf : ∀ a, Reads (f a)) : Reads (p >>= f) where
  still fs := by
    have hstill := hp.still fs
    rw [quietRun_bind]
    generalize quietRun p fs = r at hstill
    obtain ⟨_ | _, _⟩ := r
    · exact hstill
    · subst hstill
      exact (hf _).still _
  faults harm fs v g hg := by
    refine yields_then ((hp.faults harm fs v g hg).post fun r fs' v' hr => ?_)
    obtain ⟨rfl, ⟨hr, rfl⟩ | ⟨e, rfl, rfl⟩⟩ := hr
    · rw [quietly_bind hp]
      cases r with
      | error => exact ⟨rfl, .inl ⟨by rw [← hr]; rfl, rfl⟩⟩
      | ok a =>
        rw [← hr]
        exact (hf a).faults harm fs' v' g hg
    · exact ⟨rfl, .inr ⟨e, rfl, rfl⟩⟩

theorem reads_mapError (hp : Reads p) (f : ε → ε') : Reads (mapError f p) where
  still fs := by
    have h := Prog.steady_bind FS.exec {} p.run (fun r => pure (r.mapError f)) fs
    exact (congrArg Prod.snd h).trans (hp.still fs)
  faults harm fs v g hg := by
    refine yields_mapError ((hp.faults harm fs v g hg).post fun r fs' v' hr => ?_)
    obtain ⟨rfl, ⟨rfl, rfl⟩ | ⟨e, rfl, rfl⟩⟩ := hr
    · exact ⟨rfl, .inl ⟨(quietly_mapError f p fs').symm, rfl⟩⟩
    · exact ⟨rfl, .inr ⟨f e, rfl, rfl⟩⟩

theorem reads_each {f : α → Action ε Unit} (hf : ∀ a, Reads (f a)) (l : List α) :
    Reads (each f l) := by
  induction l with
  | nil => exact reads_pure ()
  | cons a l ih => exact reads_bind (hf a) fun _ => ih

theorem quietly_each_eq_ok {f : α → Action ε Unit} (hf : ∀ a, Reads (f a)) {l} :
    quietly (each f l) fs = .ok () ↔ ∀ a ∈ l, quietly (f a) fs = .ok () := by
  induction l with
  | nil => exact iff_of_true rfl (by simp)
  | cons a l ih =>
    rw [each, quietly_bind (hf a), List.forall_mem_cons, ← ih]
    cases quietly (f a) fs with
    | ok u | error => simp

/-- A reading action that has a value: it gives it, or it fails. -/
theorem yields_read {g} (hp : Reads p) (hg : ∀ c, c.readOnly = true → harm c fs = g)
    (hvalue : quietly p fs = .ok a) (hthen : Yields harm (f a).run Q fs v)
    (hfail : ∀ e, Q (.error e) fs (v && !g)) : Yields harm (p >>= f).run Q fs v := by
  refine yields_then ((hp.faults harm fs v g hg).post fun r fs' v' hr => ?_)
  obtain ⟨rfl, ⟨rfl, rfl⟩ | ⟨e, rfl, rfl⟩⟩ := hr
  · rwa [hvalue]
  · exact hfail e

theorem yields_read_unmarked (hp : Reads p)
    (hthen : ∀ a v', quietly p fs = .ok a → Yields harm (f a).run Q fs v')
    (hfail : ∀ e v', Q (.error e) fs v') : Yields harm (p >>= f).run Q fs v := by
  have hquiet : Yields (fun _ _ => false) p.run (fun r fs' _ => fs' = fs ∧
      (r = quietly p fs ∨ ∃ e, r = .error e)) fs true :=
    (hp.faults _ fs true false fun _ _ => rfl).post fun r fs' v' hr =>
      ⟨hr.1, hr.2.imp And.left fun ⟨e, he, _⟩ => ⟨e, he⟩⟩
  refine yields_then (hquiet.unmarked.post fun r fs' v' hr => ?_)
  obtain ⟨rfl, rfl | ⟨e, rfl⟩⟩ := hr
  · cases hvalue : quietly p fs' with
    | ok a => exact hthen a v' hvalue
    | error e => exact hfail e v'
  · exact hfail e v'

end FileSystem
