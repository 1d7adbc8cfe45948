import PrivateVm.Usb.Prepare

set_option autoImplicit false

/-! # Destructive preparation is authorised

However the calls of `PlanPreparation` and `Prepare` interleave: the backend is called for a
session no more often with a challenge than the challenge was drawn for it (`Preparations.Sound`),
and each time the call has just compared the stored plan with what was presented, revalidated the
claim and got the authorization (`Preparations.Authorised`).
-/

namespace PrivateVm.Usb

open Checked Program Transfer Timestamp Session Program.Contract Function

namespace Preparations

/-! ## The invariant -/

def stored (s : Preparations) (id challenge : String) : Nat :=
  if s.spent id = false ∧ (s.plans id).map (·.challenge) = some challenge then 1 else 0

structure Sound (s : Preparations) : Prop where
  counted : ∀ id challenge,
    s.prepared.count (id, challenge) + s.stored id challenge ≤ s.generated.count (id, challenge)
  left : ∀ id, s.owner id = none → s.spent id = false

/-- What holds when the backend of a session is called, with the call that a thread is in and the
plan of the session: `now`, `devices` and `device` are what the call has seen before. -/
structure Approval (sha256 : Bytes → Digest) (t : Nat) (claim : ClaimRecord) (s : Preparations)
    (snapshot : Snapshot) (claimID : String) (enrollment : Enrollment) (challenge : String)
    (confirmation : Confirmation) (plan : PreparePlan) : Prop where
  inCall : s.current t = some (.prepare snapshot claimID enrollment challenge confirmation)
  inside : s.owner snapshot.id = some t
  isStored : s.plans snapshot.id = some plan
  unspent : s.spent snapshot.id = false
  presented : challenge = plan.challenge
  confirmed : confirmation = ⟨plan.firstPrompt, plan.secondPrompt⟩
  identity : enrollment.identity.fingerprint sha256 = .ok plan.fingerprint
  owned : claim.sessionID = snapshot.id ∧ claim.ownerUID = snapshot.ownerUID
  /-- The last operations of the call, latest first. -/
  seen : ∃ now devices device earlier,
    s.trace t = [⟨.contextErr, false⟩, ⟨.step .authorizePrepare, true⟩, ⟨.snapshot, devices⟩,
      ⟨.getClaim claimID, some claim⟩, ⟨.contextErr, false⟩, ⟨.now, now⟩] ++ earlier ∧
    plan.createdAt.nanos ≤ now.nanos ∧ now.nanos ≤ plan.createdAt.nanos + maximumPrepareAge ∧
    resolveEnrollment sha256 enrollment devices = .ok device ∧
    sameKernelObservation claim.device device = true

def Authorised (sha256 : Bytes → Digest) (t : Nat) (id : String) (claim : ClaimRecord)
    (s : Preparations) : Prop :=
  ∃ snapshot claimID enrollment challenge confirmation plan, id = snapshot.id ∧
    s.Approval sha256 t claim snapshot claimID enrollment challenge confirmation plan

def before (sha256 : Bytes → Digest) (t : Nat) : PrepareOp → Preparations → Prop
  | .leave id, s => s.owner id = some t ∧ s.spent id = false
  | .setPlan id plan, s => s.owner id = some t ∧
      s.prepared.count (id, plan.challenge) + 1 ≤ s.generated.count (id, plan.challenge)
  | .deletePlan id, s => s.owner id = some t
  | .backendPrepare id claim _, s => s.Authorised sha256 t id claim
  | _, _ => True

theorem sound_newHostWorkflow : newHostWorkflow.Sound :=
  ⟨fun _ _ => Nat.le_refl 0, fun _ _ => rfl⟩

namespace Sound

variable {s : Preparations} {t : Nat} {id : String}

theorem note (h : s.Sound) (e : PrepareEntry) : (s.note t e).Sound := ⟨h.counted, h.left⟩

variable {x : PrepareChoice}

theorem enter (h : s.Sound) (c : PrepareCall) : (act t (.enter c) x s).2.Sound where
  counted := h.counted
  left id' hid := by
    simp only [act, update_apply] at hid
    split at hid
    · cases hid
    · exact h.left id' hid

theorem leave (h : s.Sound) (hspent : s.spent id = false) : (act t (.leave id) x s).2.Sound where
  counted := h.counted
  left id' hid := by
    simp only [act, update_apply] at hid
    split at hid
    · rename_i heq
      exact heq ▸ hspent
    · exact h.left id' hid

theorem setPlan (h : s.Sound) {plan} (hcount : s.prepared.count (id, plan.challenge) + 1 ≤
    s.generated.count (id, plan.challenge)) : (act t (.setPlan id plan) x s).2.Sound where
  counted id' challenge := by
    have hcnt := h.counted id' challenge
    simp only [act, stored] at hcnt ⊢
    grind
  left id' hid := by
    have hleft := h.left id' hid
    simp only [act]
    grind

theorem deletePlan (h : s.Sound) : (act t (.deletePlan id) x s).2.Sound where
  counted id' challenge := by
    have hcnt := h.counted id' challenge
    simp only [act, stored] at hcnt ⊢
    grind
  left id' hid := by
    have hleft := h.left id' hid
    simp only [act]
    grind

theorem random (h : s.Sound) : (act t .random x s).2.Sound := by
  simp only [act]
  split
  · exact ⟨fun id' challenge => (h.counted id' challenge).trans List.count_le_count_cons, h.left⟩
  · exact h

/-- The backend is called with a plan that is not spent. -/
theorem backendPrepare {sha256 : Bytes → Digest} (h : s.Sound) {claim filesystem}
    (hauth : s.Authorised sha256 t id claim) :
    (act t (.backendPrepare id claim filesystem) x s).2.Sound := by
  obtain ⟨snapshot, claimID, enrollment, challenge, confirmation, plan, rfl, hplan⟩ := hauth
  refine ⟨fun id' challenge' => ?_, fun id' hid => ?_⟩
  · have hcnt := h.counted id' challenge'
    simp only [act, hplan.inCall, PrepareCall.presented, hplan.presented, stored] at hcnt ⊢
    have := hplan.isStored
    have := hplan.unspent
    grind
  · have hleft := h.left id' hid
    have := hplan.inside
    simp only [act] at hid ⊢
    grind

end Sound

variable {t : Nat} {x : PrepareChoice} {s : Preparations} {sha256 : Bytes → Digest} {o : PrepareOp}
  {t' : Nat}

theorem sound_exec (h : s.Sound) (hbefore : before sha256 t o s) : (exec t o x s).2.Sound := by
  refine .note ?_ _
  cases o with
  | enter c => exact h.enter c
  | leave => exact h.leave hbefore.2
  | setPlan => exact h.setPlan hbefore.2
  | deletePlan => exact h.deletePlan
  | random => exact h.random
  | backendPrepare => exact h.backendPrepare hbefore
  | _ => exact h

/-! ## What the other threads leave alone -/

/-- The other calls leave the session of a call as it is, but for what is drawn. -/
structure Alike (id : String) (s s' : Preparations) : Prop where
  plans : s'.plans id = s.plans id
  owner : s'.owner id = s.owner id
  spent : s'.spent id = s.spent id
  prepared : ∀ challenge, s'.prepared.count (id, challenge) = s.prepared.count (id, challenge)
  generated : ∀ challenge, s.generated.count (id, challenge) ≤ s'.generated.count (id, challenge)

theorem Alike.refl (id : String) (s : Preparations) : Alike id s s :=
  ⟨rfl, rfl, rfl, fun _ => rfl, fun _ => Nat.le_refl _⟩

/-- Operations of another thread on a session of its own. -/
theorem alike_act {id} (hne : t' ≠ t) (hid : s.owner id = some t) (hen : enabled t' o x s = true)
    (hbefore : before sha256 t' o s) : Alike id s (act t' o x s).2 := by
  have hother : ∀ {id'}, s.owner id' = some t' → id ≠ id' := by
    rintro id' hid' rfl
    exact hne (Option.some.inj (hid'.symm.trans hid))
  cases o with
  | enter c =>
    have hfree : id ≠ c.sessionID := by
      rintro rfl
      simp [enabled, hid] at hen
    exact ⟨rfl, update_of_ne hfree .., rfl, fun _ => rfl, fun _ => Nat.le_refl _⟩
  | leave =>
    have hid' := hother hbefore.1
    exact ⟨rfl, update_of_ne hid' .., rfl, fun _ => rfl, fun _ => Nat.le_refl _⟩
  | setPlan =>
    have hid' := hother hbefore.1
    exact ⟨update_of_ne hid' .., rfl, update_of_ne hid' .., fun _ => rfl,
      fun _ => Nat.le_refl _⟩
  | deletePlan =>
    have hid' := hother hbefore
    exact ⟨update_of_ne hid' .., rfl, update_of_ne hid' .., fun _ => rfl,
      fun _ => Nat.le_refl _⟩
  | random =>
    simp only [act]
    split
    · exact ⟨rfl, rfl, rfl, fun _ => rfl, fun _ => List.count_le_count_cons⟩
    · exact .refl id s
  | backendPrepare =>
    obtain ⟨snapshot, claimID, enrollment, challenge, confirmation, plan, rfl, hplan⟩ := hbefore
    have hid' := hother hplan.inside
    refine ⟨rfl, rfl, update_of_ne hid' .., fun challenge' => ?_, fun _ => Nat.le_refl _⟩
    exact List.count_cons_of_ne fun h => hid' (congrArg Prod.fst h).symm
  | _ => exact .refl id s

theorem act_local (o : PrepareOp) (hne : t' ≠ t) :
    (act t' o x s).2.current t = s.current t ∧ (act t' o x s).2.trace t = s.trace t := by
  cases o with
  | enter => exact ⟨update_of_ne hne.symm .., update_of_ne hne.symm ..⟩
  | random =>
    simp only [act]
    split <;> exact ⟨rfl, rfl⟩
  | _ => exact ⟨rfl, rfl⟩

end Preparations

/-! ## The contract of the calls -/

def prepareContract (sha256 : Bytes → Digest) : Contract (preparePool sha256) where
  permits _ _ _ _ := True
  inv := Preparations.Sound
  before := Preparations.before sha256
  keeps h hbefore _ _ := Preparations.sound_exec h hbefore

namespace Preparations

def Inside (t : Nat) (c : PrepareCall) (s : Preparations) : Prop :=
  s.owner c.sessionID = some t ∧ s.current t = some c

/-- A thread is in a call and has not spent a plan. -/
def Unspent (t : Nat) (c : PrepareCall) (s : Preparations) : Prop :=
  s.Inside t c ∧ s.spent c.sessionID = false

def Drawn (t : Nat) (c : PrepareCall) (challenge : String) (s : Preparations) : Prop :=
  s.Unspent t c ∧
    s.prepared.count (c.sessionID, challenge) + 1 ≤ s.generated.count (c.sessionID, challenge)

def Stored (t : Nat) (c : PrepareCall) (plan : PreparePlan) (s : Preparations) : Prop :=
  s.Unspent t c ∧ s.plans c.sessionID = some plan

/-- The call has read the plan of its session, and has made some operations. -/
def Traced (t : Nat) (c : PrepareCall) (plan : PreparePlan) (trace : List PrepareEntry)
    (s : Preparations) : Prop :=
  s.Unspent t c ∧ s.plans c.sessionID = some plan ∧ s.trace t = trace

section

variable {sha256 : Bytes → Digest} {t : Nat} {c : PrepareCall}

theorem stable_of_alike {A : Preparations → Prop}
    (h : ∀ s s', (∀ id, s.owner id = some t → Alike id s s') → s'.current t = s.current t →
      s'.trace t = s.trace t → A s → A s') : (prepareContract sha256).Stable t A := by
  rintro t' s s' hne ⟨o, x, hinv, hbefore, hen, -, rfl⟩ hA
  obtain ⟨hcur, htr⟩ := act_local o hne
  refine h s _ (fun id hid => ?_) hcur ?_ hA
  · obtain ⟨hplans, howner, hspent, hprep, hgen⟩ :=
      alike_act hne hid hen hbefore
    exact ⟨hplans, howner, hspent, hprep, hgen⟩
  · rw [← htr]
    exact update_of_ne hne.symm ..

theorem Unspent.alike {s s'} (h : s.Unspent t c)
    (halike : ∀ id, s.owner id = some t → Alike id s s') (hcur : s'.current t = s.current t) :
    s'.Unspent t c := by
  obtain ⟨⟨howner, hcall⟩, hspent⟩ := h
  exact ⟨⟨(halike _ howner).owner.trans howner, hcur.trans hcall⟩,
    (halike _ howner).spent.trans hspent⟩

theorem stable_inside : (prepareContract sha256).Stable t (Inside t c) :=
  stable_of_alike fun _ _ halike hcur _ ⟨howner, hcall⟩ =>
    ⟨(halike _ howner).owner.trans howner, hcur.trans hcall⟩

theorem stable_unspent : (prepareContract sha256).Stable t (Unspent t c) :=
  stable_of_alike fun _ _ halike hcur _ h => h.alike halike hcur

theorem stable_challenge {challenge} : (prepareContract sha256).Stable t (Drawn t c challenge) := by
  refine stable_of_alike fun s s' halike hcur _ ⟨h, hcnt⟩ => ⟨h.alike halike hcur, ?_⟩
  rw [(halike _ h.1.1).prepared]
  exact hcnt.trans ((halike _ h.1.1).generated _)

variable {plan : PreparePlan}

theorem stable_stored : (prepareContract sha256).Stable t (Stored t c plan) :=
  stable_of_alike fun _ _ halike hcur _ ⟨h, hplan⟩ =>
    ⟨h.alike halike hcur, (halike _ h.1.1).plans.trans hplan⟩

theorem stable_traced {trace} : (prepareContract sha256).Stable t (Traced t c plan trace) :=
  stable_of_alike fun _ _ halike hcur htr ⟨h, hplan, hs⟩ =>
    ⟨h.alike halike hcur, (halike _ h.1.1).plans.trans hplan, htr.trans hs⟩

end

/-! ## The programs of the calls -/

def Quiet : PrepareOp → Prop
  | .now | .contextErr | .getClaim _ | .snapshot | .step _ | .cleanup _ => True
  | _ => False

variable {t : Nat} {o : PrepareOp}

theorem exec_quiet (h : Quiet o) (x : PrepareChoice) (s : Preparations) :
    (exec t o x s).2 = s.note t ⟨o, (exec t o x s).1⟩ := by
  cases o with
  | now | contextErr | getClaim | snapshot | step | cleanup => rfl
  | _ => cases h

theorem before_quiet {sha256 : Bytes → Digest} (h : Quiet o) (s : Preparations) :
    before sha256 t o s := by
  cases o with
  | now | contextErr | getClaim | snapshot | step | cleanup => trivial
  | _ => cases h

end Preparations

open Preparations
open Prog (uses_lift uses_check uses_pure uses_throw gives_ok_bind)

/-- From a state, a program ends with a condition, whatever the other threads do. -/
abbrev Prepares (sha256 : Bytes → Digest) (t : Nat) {α : Type} (p : PrepareProg α)
    (Q : Except PrepareError α → Preparations → Prop) : Preparations → Prop :=
  (prepareContract sha256).Meets t p.run Q

section

variable {sha256 : Bytes → Digest} {t : Nat} {c : PrepareCall} {s : Preparations}
  {enrollment : Enrollment} {claimID : String} {snapshot : Snapshot} {plan : PreparePlan}
  {trace : List PrepareEntry} {confirmation : Confirmation} {α : Type} {e : PrepareError}
  {sessionID : String} {ownerUID : UInt32}

/-- Programs that only ask keep what does not depend on the record. -/
theorem meets_quiet {A : Preparations → Prop} {p : PrepareProg α} (hp : p.run.Uses Quiet)
    (hA : (prepareContract sha256).Stable t A) (hnote : ∀ s e, A s → A (s.note t e)) (h : A s) :
    Prepares sha256 t p (fun r s => A s ∧ p.run.Gives r) s := by
  refine meets_of_uses hp hA (fun o s ho _ _ => before_quiet ho s) (fun o x s ho hs => ?_) h
  change A (Preparations.exec t o x s).2
  rw [exec_quiet ho]
  exact hnote s _ hs

variable {call : PrepareStep} {phase : Phase} {current : Snapshot} {now : Time} {challenge : String}

theorem uses_need : (need call e).run.Uses Quiet :=
  (uses_lift trivial).run_bind fun _ => uses_check _

theorem uses_revalidate :
    (revalidate sha256 claimID sessionID ownerUID enrollment).run.Uses Quiet :=
  (uses_lift trivial).run_bind fun _ => (uses_check _).run_bind fun _ =>
    (uses_lift trivial).run_bind fun _ => (uses_check _).run_bind fun _ =>
      (uses_check _).run_bind fun _ => uses_pure _

theorem uses_transition : (transition snapshot phase).run.Uses Quiet :=
  uses_need.run_bind fun _ => uses_pure _

theorem uses_ensureRuntime : (ensureRuntime sha256 snapshot claimID enrollment).run.Uses Quiet := by
  unfold ensureRuntime
  split
  · exact uses_need.run_bind fun _ => uses_pure _
  split
  · exact uses_throw _
  exact uses_need.run_bind fun _ => uses_transition.run_bind fun _ => uses_need.run_bind fun _ =>
    uses_transition.run_bind fun _ => uses_need.run_bind fun _ => uses_need.run_bind fun _ =>
      uses_transition.run_bind fun _ => uses_revalidate.run_bind fun _ =>
        uses_need.run_bind fun _ => uses_need.run_bind fun _ =>
          uses_transition.run_bind fun _ => uses_need.run_bind fun _ => uses_pure _

theorem gives_transition (h : (transition snapshot phase).run.Gives (.ok current)) :
    current.id = snapshot.id ∧ current.ownerUID = snapshot.ownerUID := by
  obtain ⟨_, _, h⟩ := gives_ok_bind.1 h
  cases h
  exact ⟨rfl, rfl⟩

/-- The session that `ensureRuntime` returns is the one it was called for. -/
theorem gives_ensureRuntime
    (h : (ensureRuntime sha256 snapshot claimID enrollment).run.Gives (.ok current)) :
    current.id = snapshot.id ∧ current.ownerUID = snapshot.ownerUID := by
  unfold ensureRuntime at h
  split at h
  · obtain ⟨_, _, h⟩ := gives_ok_bind.1 h
    cases h
    exact ⟨rfl, rfl⟩
  split at h
  · cases h
  simp only [gives_ok_bind] at h
  obtain ⟨-, -, s₁, h₁, -, -, s₂, h₂, -, -, -, -, s₃, h₃, -, -, -, -, -, -, s₄, h₄, -, -, h⟩ := h
  cases h
  exact ⟨by rw [(gives_transition h₄).1, (gives_transition h₃).1, (gives_transition h₂).1,
      (gives_transition h₁).1],
    by rw [(gives_transition h₄).2, (gives_transition h₃).2, (gives_transition h₂).2,
      (gives_transition h₁).2]⟩

/-- How a program ends that has not called the backend: with `B`, or in an error. -/
def Ends {α : Type} (t : Nat) (c : PrepareCall) (B : α → Preparations → Prop) :
    Except PrepareError α → Preparations → Prop
  | .ok a, s => B a s
  | .error _, s => s.Unspent t c

section

variable {α β : Type} {f : α → PrepareProg β} {B : α → Preparations → Prop}
  {Q : Except PrepareError β → Preparations → Prop}

theorem meets_then {p} (hp : Prepares sha256 t p (Ends t c B) s)
    (hQ : ∀ e s, s.Unspent t c → Q (.error e) s) (hf : ∀ a s, B a s → Prepares sha256 t (f a) Q s) :
    Prepares sha256 t (p >>= f) Q s :=
  meets_run_bind hp (fun e _ h => meets_pure stable_unspent h (hQ e)) hf

theorem meets_check {e : Except PrepareError α} (h : s.Unspent t c)
    (hQ : ∀ e s, s.Unspent t c → Q (.error e) s)
    (hf : ∀ a, e = .ok a → Prepares sha256 t (f a) Q s) :
    Prepares sha256 t ((liftM e : PrepareProg α) >>= f) Q s :=
  meets_check_bind (fun e _ => meets_pure stable_unspent h (hQ e)) hf

variable {o : PrepareOp} {A : Preparations → Prop}

theorem meets_request {f : o.Res → PrepareProg β} (hA : (prepareContract sha256).Stable t A)
    (hs : A s) (hbefore : ∀ s, A s → before sha256 t o s) (hf : ∀ s x, s.Sound → A s →
      Prepares sha256 t (f (Preparations.exec t o x s).1) Q
        (Preparations.exec t o x s).2) :
    Prepares sha256 t (request o >>= f) Q s :=
  meets_lift_bind hA hs (fun s _ => hbefore s) fun s x hinv h _ _ => hf s x hinv h

/-- An operation that only asks; its answer is the environment's. -/
theorem meets_ask {f : o.Res → PrepareProg β} (ho : Quiet o)
    (hA : (prepareContract sha256).Stable t A) (hs : A s)
    (hf : ∀ s r, A s → Prepares sha256 t (f r) Q (s.note t ⟨o, r⟩)) :
    Prepares sha256 t (request o >>= f) Q s := by
  refine meets_request hA hs (fun s _ => before_quiet ho s) fun s x _ => ?_
  rw [exec_quiet ho]
  exact hf s _

end

theorem Preparations.Traced.note {s : Preparations} (h : s.Traced t c plan trace)
    (e : PrepareEntry) : (s.note t e).Traced t c plan (e :: trace) := by
  obtain ⟨huns, hplan, rfl⟩ := h
  exact ⟨huns, hplan, update_self ..⟩

theorem meets_checkContext {canceled : PrepareProg Unit} (hcanc : canceled = pure ())
    (h : s.Traced t c plan trace) :
    Prepares sha256 t (checkContext canceled)
      (Ends t c fun _ => Traced t c plan (⟨.contextErr, false⟩ :: trace)) s := by
  subst hcanc
  refine meets_ask trivial stable_traced h fun s ended h => ?_
  cases ended with
  | true => exact meets_pure stable_unspent h.1 fun _ h => h
  | false => exact meets_pure stable_traced (h.note _) fun _ h => h

theorem meets_need (h : s.Traced t c plan trace) :
    Prepares sha256 t (need call e)
      (Ends t c fun _ => Traced t c plan (⟨.step call, true⟩ :: trace)) s := by
  refine meets_ask trivial stable_traced h fun s done h => ?_
  cases done with
  | false => exact meets_pure stable_unspent h.1 fun _ h => h
  | true => exact meets_pure stable_traced (h.note _) fun _ h => h

/-- `getOwned` returns the claim the table has, of the session and its owner. -/
theorem ownedClaim_eq_ok {found claim} (h : ownedClaim sessionID ownerUID found = .ok claim) :
    found = some claim ∧ claim.sessionID = sessionID ∧ claim.ownerUID = ownerUID := by
  cases found with
  | none => cases h
  | some =>
    simp only [ownedClaim] at h
    split at h
    · cases h
    · rename_i hown
      cases h
      exact ⟨rfl, not_not.1 (not_or.1 hown).1, not_not.1 (not_or.1 hown).2⟩

/-- What `Revalidate` has asked and seen when it returns a claim. -/
theorem meets_revalidate (h : s.Traced t c plan trace) :
    Prepares sha256 t (revalidate sha256 claimID sessionID ownerUID enrollment)
      (Ends t c fun claim s => ∃ devices device,
        s.Traced t c plan (⟨.snapshot, devices⟩ :: ⟨.getClaim claimID, some claim⟩ :: trace) ∧
        resolveEnrollment sha256 enrollment devices = .ok device ∧
        sameKernelObservation claim.device device = true ∧ claim.sessionID = sessionID ∧
        claim.ownerUID = ownerUID) s := by
  refine meets_ask trivial stable_traced h fun s found h => ?_
  refine meets_check h.1 (fun _ _ h => h) fun claim hclaim => ?_
  obtain ⟨rfl, hses, howner⟩ := ownedClaim_eq_ok (mapError_eq_ok.1 hclaim)
  refine meets_ask trivial stable_traced (h.note _) fun s devices h => ?_
  refine meets_check h.1 (fun _ _ h => h) fun device hdev => ?_
  refine meets_check h.1 (fun _ _ h => h) fun _ hsame => ?_
  refine meets_pure stable_traced (h.note _) fun s h => ?_
  exact ⟨devices, device, h, mapError_eq_ok.1 hdev,
    Bool.eq_true_of_not_eq_false (failIf_eq_ok.1 hsame), hses, howner⟩

/-! ### The coordinator -/

/-- What a plan is compared with. -/
theorem PreparePlan.of_validate (h : plan.validate sha256 enrollment confirmation now = .ok ()) :
    confirmation = ⟨plan.firstPrompt, plan.secondPrompt⟩ ∧
      enrollment.identity.fingerprint sha256 = .ok plan.fingerprint ∧
      plan.createdAt.nanos ≤ now.nanos ∧
      now.nanos ≤ plan.createdAt.nanos + maximumPrepareAge := by
  simp only [PreparePlan.validate, bind_eq_ok, failIf_eq_ok, mapError_eq_ok, not_or, not_not,
    Bool.not_eq_true, Time.before_eq_false, exists_const] at h
  obtain ⟨⟨-, -, -, -, -, -, hpast, hage⟩, fingerprint, hfp, ⟨rfl, -, -⟩, hfst, hsec⟩ := h
  refine ⟨?_, hfp, hpast, by omega⟩
  cases confirmation
  simp only at hfst hsec
  rw [hfst, hsec]

/-- Without a sink the events of the backend make no operation. -/
theorem relayEvents_pure (sequence : Nat) (events : List PrepareEvent) :
    ∃ n, relayEvents (fun _ => pure ()) sequence events = pure n := by
  induction events generalizing sequence with
  | nil => exact ⟨sequence, rfl⟩
  | cons e rest ih =>
    unfold relayEvents
    split
    · exact ih (sequence + 1)
    · exact ih sequence

theorem finishPrepare_pure (sequence : Nat) (receipt : Option PrepareReceipt) :
    ∃ r, (finishPrepare enrollment plan (fun _ => pure ()) sequence receipt).run = pure r := by
  cases receipt with
  | none => exact ⟨_, rfl⟩
  | some =>
    simp only [finishPrepare]
    split <;> exact ⟨_, rfl⟩

/-- An event that nobody takes. -/
theorem meets_silent (h : s.Traced t c plan trace) :
    Prepares sha256 t (pure () : PrepareProg Unit) (Ends t c fun _ => Traced t c plan trace) s :=
  meets_pure stable_traced h fun _ h => h

theorem meets_coordinatorPrepare
    (hc : c = .prepare snapshot claimID enrollment challenge confirmation)
    (howner : ownerUID = snapshot.ownerUID) (hchal : challenge = plan.challenge)
    (h : s.Traced t c plan trace) :
    Prepares sha256 t (coordinatorPrepare sha256 claimID snapshot.id ownerUID
      enrollment plan confirmation fun _ => pure ()) (fun _ => Inside t c) s := by
  have hend : ∀ (_ : PrepareError) s, Unspent t c s → Inside t c s := fun _ _ h => h.1
  refine meets_ask trivial stable_traced h fun s now h => ?_
  refine meets_check h.1 hend fun _ hval => ?_
  obtain ⟨hconf, hident, hpast, hage⟩ := PreparePlan.of_validate (mapError_eq_ok.1 hval)
  refine meets_then (meets_silent (h.note _)) hend fun _ s h => ?_
  refine meets_then (meets_checkContext rfl h) hend fun _ s h => ?_
  refine meets_then (meets_revalidate h) hend fun claim s hclaim => ?_
  obtain ⟨devices, device, h, hdev, hsame, hses, huid⟩ := hclaim
  refine meets_then (meets_need h) hend fun _ s h => ?_
  refine meets_then (meets_checkContext rfl h) hend fun _ s h => ?_
  refine meets_request stable_traced h ?_ fun s x _ h => ?_
  · rintro s ⟨⟨⟨hins, hcall⟩, hspent⟩, hplan, htr⟩
    subst hc
    exact ⟨snapshot, claimID, enrollment, challenge, confirmation, plan, rfl, hcall, hins, hplan,
      hspent, hchal, hconf, hident, ⟨hses, huid.trans howner⟩,
      now, devices, device, trace, htr, hpast, hage, hdev, hsame⟩
  · obtain ⟨n, hn⟩ := relayEvents_pure 2 x.events
    obtain ⟨r, hr⟩ := @finishPrepare_pure enrollment plan n x.receipt
    change Prepares sha256 t (relayEvents _ 2 x.events >>= fun sequence =>
      finishPrepare enrollment plan _ sequence x.receipt) _ _
    rw [hn]
    change (prepareContract sha256).Meets t (finishPrepare enrollment plan _ n x.receipt).run _ _
    rw [hr]
    exact meets_pure stable_inside h.1.1 fun _ h => h

/-! ### The workflow -/

theorem meets_newPreparePlan {device : Device} (h : s.Unspent t c) :
    Prepares sha256 t (newPreparePlan sha256 enrollment device now)
      (Ends t c fun plan => Drawn t c plan.challenge) s := by
  have hend : ∀ e s, Unspent t c s →
      Ends t c (fun (plan : PreparePlan) => Drawn t c plan.challenge) (.error e) s :=
    fun _ _ h => h
  refine meets_check h hend fun _ _ => ?_
  refine meets_check h hend fun _ _ => ?_
  refine meets_request stable_unspent h (fun _ _ => trivial) fun s x hsound h => ?_
  cases hrand : x.random with
  | none =>
    have hans : (Preparations.exec t .random x s).1 = none := by
      simp only [Preparations.exec, act, hrand]
    have huns : (Preparations.exec t .random x s).2.Unspent t c := by
      simp only [Preparations.exec, act, hrand]
      exact h
    rw [hans]
    exact meets_check huns hend fun a ha => by cases ha
  | some bytes =>
    have hdrawn : (Preparations.exec t .random x s).2.Drawn t c (Hex.text bytes.toList) := by
      simp only [Preparations.exec, act, hrand, h.1.2, Drawn, note, List.count_cons_self]
      have := hsound.counted c.sessionID (Hex.text bytes.toList)
      exact ⟨h, by omega⟩
    have hans : (Preparations.exec t .random x s).1 = some bytes := by
      simp only [Preparations.exec, act, hrand, h.1.2]
    rw [hans]
    refine meets_check hdrawn.1 hend fun bytes' hbytes => ?_
    obtain rfl := Option.some.inj (ofOption_eq_ok.1 hbytes)
    refine meets_check hdrawn.1 hend fun fingerprint _ => ?_
    exact meets_pure stable_challenge hdrawn fun _ h => h

theorem meets_planPreparation (hid : c.sessionID = snapshot.id) (h : s.Unspent t c) :
    Prepares sha256 t (planPreparation sha256 snapshot claimID enrollment)
      (fun _ => Unspent t c) s := by
  have hend : ∀ (_ : PrepareError) s, Unspent t c s → Unspent t c s := fun _ _ h => h
  refine meets_check h hend fun _ _ => ?_
  refine meets_then (B := fun _ => Unspent t c)
    ((meets_quiet uses_revalidate stable_unspent (fun _ _ h => h) h).post fun r s h => ?_) hend
    fun claim s h => ?_
  · cases r with
    | ok claim | error => exact h.1
  refine meets_ask trivial stable_unspent h fun s now h => ?_
  refine meets_then (meets_newPreparePlan h) hend fun plan s h => ?_
  refine meets_request stable_challenge h ?_ fun s x _ h => ?_
  · rintro s ⟨⟨⟨howner, -⟩, -⟩, hcnt⟩
    rw [hid] at howner hcnt
    exact ⟨howner, hcnt⟩
  · refine meets_pure stable_unspent ⟨h.1.1, ?_⟩ fun _ h => h
    rw [hid]
    exact update_self ..

theorem meets_deletePlan_bind {f : Unit → PrepareProg α} (hid : c.sessionID = snapshot.id)
    {Q : Except PrepareError α → Preparations → Prop} (h : s.Inside t c)
    (hf : ∀ s, s.Unspent t c → Prepares sha256 t (f ()) Q s) :
    Prepares sha256 t (request (.deletePlan snapshot.id) >>= f) Q s := by
  refine meets_request stable_inside h ?_ fun s x _ h => ?_
  · rintro s ⟨howner, -⟩
    exact hid ▸ howner
  · refine hf _ ⟨h, ?_⟩
    rw [hid]
    exact update_self ..

theorem meets_cleanupFailed (hid : c.sessionID = snapshot.id) (h : s.Inside t c) :
    Prepares sha256 t (cleanupFailed snapshot e : PrepareProg α)
      (fun r s => s.Unspent t c ∧ ∃ e, r = .error e) s := by
  refine meets_ask trivial stable_inside h fun s phase h => ?_
  refine meets_deletePlan_bind hid h fun s h => ?_
  split <;> exact meets_pure stable_unspent h fun s h => ⟨h, _, rfl⟩

theorem meets_prepare (hc : c = .prepare snapshot claimID enrollment challenge confirmation)
    (h : s.Unspent t c) : Prepares sha256 t
      (prepare sha256 snapshot claimID enrollment challenge confirmation)
      (fun _ => Unspent t c) s := by
  have hid : c.sessionID = snapshot.id := hc ▸ rfl
  have hend : ∀ (_ : PrepareError) s, Unspent t c s → Unspent t c s := fun _ _ h => h
  refine meets_request stable_unspent h (fun _ _ => trivial) fun s x _ h => ?_
  refine meets_check h hend fun plan hplan => ?_
  have hstor : (Preparations.exec t (.getPlan snapshot.id) x s).2.Stored t c plan := by
    have hread : s.plans snapshot.id = some plan := ofOption_eq_ok.1 hplan
    rw [← hid] at hread
    exact ⟨h, hread⟩
  refine meets_check h hend fun _ hchal => ?_
  refine meets_ask trivial stable_stored hstor fun s now h => ?_
  refine meets_check h.1 hend fun _ _ => ?_
  refine meets_run_bind (R := Ends t c fun current s => s.Stored t c plan ∧
      current.id = snapshot.id ∧ current.ownerUID = snapshot.ownerUID) ?_
    (fun _ _ h => meets_pure stable_unspent h fun _ h => h) fun current s hcur => ?_
  · -- the runtime is started, and the plan that was read is still there
    refine meets_tryCatch (meets_quiet uses_ensureRuntime stable_stored (fun _ _ h => h) h) ?_ ?_
    · intro e s hfail
      refine (meets_cleanupFailed hid hfail.1.1.1).post fun r s hr => ?_
      obtain ⟨huns, e, rfl⟩ := hr
      exact huns
    · intro current s hok
      exact meets_pure stable_stored hok.1 fun s hs => ⟨hs, gives_ensureRuntime hok.2⟩
  · obtain ⟨⟨huns, hplan⟩, hsame, howner⟩ := hcur
    refine meets_run_bind (R := fun r s => s.Inside t c ∧ ∀ e, r = .error e → s.Unspent t c) ?_
      (fun e _ h => meets_pure stable_unspent (h.2 e rfl) fun _ h => h) fun receipt s h => ?_
    · rw [hsame]
      refine meets_tryCatch (meets_coordinatorPrepare hc howner ?_ ⟨huns, hplan, rfl⟩) ?_ ?_
      · exact (not_not.1 (failIf_eq_ok.1 hchal)).symm
      · intro e s hins
        refine (meets_cleanupFailed (hid.trans hsame.symm) hins).post fun r s hr => ?_
        exact ⟨hr.1.1, fun _ _ => hr.1⟩
      · intro receipt s hins
        exact meets_pure stable_inside hins fun s h => ⟨h, fun e he => by cases he⟩
    · exact meets_deletePlan_bind hid h.1 fun s h => meets_pure stable_unspent h fun _ h => h

theorem meets_run (h : s.Unspent t c) :
    Prepares sha256 t (c.run sha256) (fun _ => Unspent t c) s := by
  cases c with
  | planPreparation =>
    exact meets_run_bind (meets_planPreparation rfl h)
      (fun _ _ h => meets_pure stable_unspent h fun _ h => h)
      fun _ _ h => meets_pure stable_unspent h fun _ h => h
  | prepare =>
    exact meets_run_bind (meets_prepare rfl h)
      (fun _ _ h => meets_pure stable_unspent h fun _ h => h)
      fun _ _ h => meets_pure stable_unspent h fun _ h => h

theorem meets_body : (prepareContract sha256).Meets t (c.body sha256) (fun _ _ => True) s := by
  refine meets_call_bind (stable_const True) trivial (fun _ _ _ => trivial) ?_
  intro s x hsound _ hen _
  have hfree : s.owner c.sessionID = none := Option.isNone_iff_eq_none.1 hen
  have huns : (Preparations.exec t (.enter c) x s).2.Unspent t c :=
    ⟨⟨update_self .., update_self ..⟩, hsound.left _ hfree⟩
  refine meets_bind ((meets_run huns).post fun _ s h => ?_)
  refine meets_call stable_unspent h (fun s _ h => ⟨h.1.1, h.2⟩) ?_
  exact fun _ _ _ _ _ _ _ _ => trivial

end

/-! ## Every run -/

theorem preparations_kept (sha256 : Bytes → Digest) :
    (prepareContract sha256).Kept (· = newHostWorkflow) (fun _ _ => True) where
  init := by
    rintro _ rfl
    exact ⟨sound_newHostWorkflow, fun _ => trivial⟩
  stable _ := stable_const True
  body _ _ _ _ _ := meets_body

/-- **Destructive preparation is authorised.** However the calls of the sessions interleave and
whatever they are given: the backend of a session is called no more often with a challenge than it
was drawn for the session; and a thread that is about to call it presents the challenge and the
confirmations of the stored plan, and has, but for tests of the context, just read the clock by
which the plan's age was accepted, revalidated the claim and got the authorization. -/
theorem preparation_authorised (sha256 : Bytes → Digest)
    {g : Config PrepareOp PrepareOp.Res Preparations}
    (h : ((preparePool sha256).machine (· = newHostWorkflow)).Reachable (Machine.free _ _) g) :
    (∀ id challenge, g.state.prepared.count (id, challenge) ≤
      g.state.generated.count (id, challenge)) ∧
    ∀ t id claim filesystem k, g.thread t = some (.op (.backendPrepare id claim filesystem) k) →
      g.state.Authorised sha256 t id claim := by
  have hholds := Contract.holds_of_reachable (preparations_kept sha256)
    (fun _ _ _ _ _ _ _ => trivial) h
  have hsound : g.state.Sound := hholds.inv
  refine ⟨fun id challenge => ?_, fun t id claim filesystem k => hholds.before⟩
  exact (Nat.le_add_right _ _).trans (hsound.counted id challenge)

/-- A stick is planned and then confirmed, in a session of its own. -/
def stickClaim : ClaimRecord := ⟨stickEnrollment.enrollmentID, "exporter-1", 7, stickDevice, 0⟩

def stickSession (phase : Phase) : Snapshot :=
  ⟨1, "exporter-1", 7, .exporter, phase, "USB_CLAIMED", 0, ⟨1, 0⟩, ⟨1, 0⟩, []⟩

def stickChallenge : String := Hex.text (List.replicate 16 10)

def stickConfirmation : Confirmation where
  first := firstConfirmation stickEnrollment.enrollmentID
  second := secondConfirmation stickEnrollment.enrollmentID (Hex.text (List.replicate 32 0))
    stickChallenge

def stickMoves : List (Program.Move PrepareChoice PrepareCall) :=
  [.start 0 (.planPreparation (stickSession .created) "usbclaim-1" stickEnrollment), .op 0 {},
    .op 0 { claim := some stickClaim }, .op 0 { devices := some [stickDevice] },
    .op 0 { now := ⟨100, 0⟩ }, .op 0 { random := some (Vector.replicate 16 10) }, .op 0 {},
    .op 0 {}, .finish 0,
    .start 0 (.prepare (stickSession .active) "usbclaim-1" stickEnrollment stickChallenge
      stickConfirmation), .op 0 {}, .op 0 {}, .op 0 { now := ⟨200, 0⟩ }, .op 0 {},
    .op 0 { now := ⟨300, 0⟩ }, .op 0 {}, .op 0 { claim := some stickClaim },
    .op 0 { devices := some [stickDevice] }, .op 0 {}, .op 0 {}]

def callsBackend : Option (Prog PrepareOp PrepareOp.Res Unit) → Bool
  | some (.op (.backendPrepare _ _ _) _) => true
  | _ => false

theorem preparation_authorised_stick :
    ∃ g, ((preparePool fun _ => Vector.replicate 32 0).machine (· = newHostWorkflow)).Reachable
        (Machine.free _ _) g ∧ callsBackend (g.thread 0) = true ∧
      ((∀ id challenge, g.state.prepared.count (id, challenge) ≤
        g.state.generated.count (id, challenge)) ∧
      ∀ t id claim filesystem k, g.thread t = some (.op (.backendPrepare id claim filesystem) k) →
        g.state.Authorised (fun _ => Vector.replicate 32 0) t id claim) := by
  have hreach : ((preparePool fun _ => .replicate 32 0).machine
      (· = newHostWorkflow)).Reachable (Machine.free _ _) _ :=
    Machine.reachable_play_free stickMoves (s := ⟨newHostWorkflow, fun _ => none⟩)
      ⟨rfl, fun _ => rfl⟩
  exact ⟨_, hreach, by decide +kernel, preparation_authorised _ hreach⟩

end PrivateVm.Usb
