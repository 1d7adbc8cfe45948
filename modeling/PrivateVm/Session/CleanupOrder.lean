import PrivateVm.Session.Manager

set_option autoImplicit false

/-! # The order of cleanup

The trace of a run is *lawful*: a handle whose cleanup and then audit succeeded is not touched
again, and the terminal event is written and published only when every handle is released and the
record is removed. At every moment the completed steps are a suffix of the step list. The record
is not removed when a failed `Remove` has left the directory under its other name: the next one
does not find it, and returns without an error (`destroyed_with_record`).
-/

namespace PrivateVm.Session

open Timestamp Checked Program List

/-! ## Lawful traces -/

/-- The cleanup of a handle and then its audit succeeded; the newest effect comes first. -/
def Released (l : List Effect) (h : Nat) : Prop := [.audited h true, .cleaned h true] <:+: l

/-- Every handle is released, and the record is removed unless a removal that failed has left it
aside. -/
structure Settled (l : List Effect) : Prop where
  released : ∀ h, .handed h ∈ l → Released l h
  removed : .recordAside ∉ l → .recordRemoved ∈ l

/-- After which effects an effect may come. -/
def Effect.MayFollow (l : List Effect) : Effect → Prop
  | .cleaned h _ | .audited h _ => ¬ Released l h
  | .appended e _ | .published e => e.phase = .destroyed → Settled l
  | _ => True

/-- Every effect of a trace may follow those before it. -/
def Lawful : List Effect → Prop
  | [] => True
  | f :: l => f.MayFollow l ∧ Lawful l

variable {f : Effect} {l : List Effect} {h index : Nat} {held : Option Nat} {c c' : Core}

theorem released_cons : Released (f :: l) h ↔
      (f = .audited h true ∧ ∃ rest, l = .cleaned h true :: rest) ∨ Released l h := by
  unfold Released
  rw [infix_cons_iff, cons_prefix_cons]
  refine or_congr_left ⟨?_, ?_⟩ <;>
    · rintro ⟨rfl, rest, rfl⟩
      exact ⟨rfl, rest, rfl⟩

theorem Released.cons (hl : Released l h) (f : Effect) :
    Released (f :: l) h := released_cons.2 (.inr hl)

theorem Released.mem (hl : Released l h) : .audited h true ∈ l :=
  hl.subset mem_cons_self

/-- Only a successful audit releases a handle. -/
theorem released_cons_iff (hf : ∀ h, f ≠ .audited h true) (h : Nat) :
    Released (f :: l) h ↔ Released l h := by
  rw [released_cons, or_iff_right]
  exact fun hnew => hf h hnew.1

theorem Settled.cons (hl : Settled l) (hf : ∀ h, f ≠ .handed h) : Settled (f :: l) where
  released h hmem := by
    obtain hnew | hold := mem_cons.1 hmem
    · exact absurd hnew.symm (hf h)
    · exact (hl.released h hold).cons f
  removed hleft := mem_cons_of_mem f (hl.removed fun hmem => hleft (mem_cons_of_mem f hmem))

def Effect.handle? : Effect → Option Nat
  | .handed h | .cleaned h _ | .audited h _ => some h
  | _ => none

/-! ## What holds at every moment, and between commands -/

def Core.stepHandles (c : Core) : List Nat := c.steps.map CleanupStep.handle

structure Orderly (c : Core) : Prop where
  lawful : Lawful c.trace
  destroyed : c.session.phase = .destroyed → Settled c.trace
  reverse : ∃ n, ∀ (i : Nat) (step : CleanupStep), c.steps[i]? = some step →
    (step.done = true ↔ n ≤ i)
  acquired : c.stepHandles.Pairwise (· < ·)
  done : ∀ step ∈ c.steps, step.done = true → Released c.trace step.handle

/-- A handle that `acquire` has obtained and not registered yet. -/
structure Held (c : Core) (h : Nat) : Prop where
  bound : h < c.handles
  fresh : ¬ Released c.trace h
  last : ∀ h' ∈ c.stepHandles, h' < h
  open_ : ∀ step ∈ c.steps, step.done = false

/-- What the actor knows about the handles while it works on a command: each is released,
registered or the one it holds. -/
structure Ledger (held : Option Nat) (c : Core) : Prop extends Orderly c where
  live : c.session.phase ≠ .destroyed
  known : ∀ f ∈ c.trace, ∀ h, f.handle? = some h → h < c.handles
  bound : ∀ h ∈ c.stepHandles, h < c.handles
  listed : ∀ h, .handed h ∈ c.trace → Released c.trace h ∨ h ∈ c.stepHandles ∨ held = some h
  undone : ∀ step ∈ c.steps, Released c.trace step.handle → step.done = true
  accepting : c.accepting = true → ∀ step ∈ c.steps, step.done = false
  holds : ∀ h, held = some h → Held c h
  aside : c.place = .aside → .recordAside ∈ c.trace

/-- The parts of the core that have to do with resources are the same, and no record is set
aside. -/
structure SameSteps (c c' : Core) : Prop where
  steps : c'.steps = c.steps
  handles : c'.handles = c.handles
  accepting : c'.accepting = c.accepting
  aside : c'.place = .aside → c.place = .aside

/-- The fields the ledger does not look at. -/
theorem Ledger.congr (hc : Ledger held c) (hsame : SameSteps c c') (htr : c'.trace = c.trace)
    (hlive : c'.session.phase ≠ .destroyed) : Ledger held c' := by
  obtain ⟨hsteps, hhds, hacc, haside⟩ := hsame
  have hlist : c'.stepHandles = c.stepHandles := by rw [Core.stepHandles, hsteps, Core.stepHandles]
  exact
    { lawful := htr ▸ hc.lawful
      destroyed := fun h => absurd h hlive
      reverse := hsteps ▸ hc.reverse
      acquired := hlist ▸ hc.acquired
      done := by rw [hsteps, htr]; exact hc.done
      live := hlive
      known := by rw [htr, hhds]; exact hc.known
      bound := by rw [hlist, hhds]; exact hc.bound
      listed := by rw [hlist, htr]; exact hc.listed
      undone := by rw [hsteps, htr]; exact hc.undone
      accepting := by rw [hsteps, hacc]; exact hc.accepting
      holds := fun h hh => by
        obtain ⟨hbd, hfr, hlast, hopen⟩ := hc.holds h hh
        exact ⟨hhds ▸ hbd, htr ▸ hfr, hlist ▸ hlast, hsteps ▸ hopen⟩
      aside := fun h => htr ▸ hc.aside (haside h) }

/-- An effect that neither hands out nor releases a handle. -/
theorem Ledger.push (hc : Ledger held c) (hsame : SameSteps c c') (htr : c'.trace = f :: c.trace)
    (hlive : c'.session.phase ≠ .destroyed) (hf : f.MayFollow c.trace)
    (hknown : ∀ h, f.handle? = some h → h < c.handles) (hhand : ∀ h, f ≠ .handed h)
    (haud : ∀ h, f ≠ .audited h true) : Ledger held c' := by
  have hrel := released_cons_iff (l := c.trace) haud
  have htraced : Ledger held (c.traced f) :=
    { lawful := ⟨hf, hc.lawful⟩
      destroyed := fun h => absurd h hc.live
      reverse := hc.reverse
      acquired := hc.acquired
      done := fun step hstep hdone => (hc.done step hstep hdone).cons f
      live := hc.live
      known := forall_mem_cons.2 ⟨hknown, hc.known⟩
      bound := hc.bound
      listed := by
        intro h hmem
        obtain hnew | hold := mem_cons.1 hmem
        · exact absurd hnew.symm (hhand h)
        · exact (hc.listed h hold).imp_left (hrel h).2
      undone := fun step hstep hr => hc.undone step hstep ((hrel _).1 hr)
      accepting := hc.accepting
      holds := fun h hh =>
        { hc.holds h hh with fresh := fun hr => (hc.holds h hh).fresh ((hrel h).1 hr) }
      aside := fun h => mem_cons_of_mem f (hc.aside h) }
  exact htraced.congr ⟨hsame.steps, hsame.handles, hsame.accepting, hsame.aside⟩ htr hlive

/-- The actor takes on a new handle. -/
theorem Ledger.handed (hc : Ledger none c) (hacc : c.accepting = true) :
    Ledger (some c.handles) c.handed := by
  have hrel : ∀ h, Released c.handed.trace h ↔ Released c.trace h :=
    released_cons_iff (by simp)
  have hfr : ¬ Released c.trace c.handles := fun h =>
    absurd (hc.known _ h.mem c.handles rfl) (Nat.lt_irrefl _)
  exact
    { lawful := ⟨trivial, hc.lawful⟩
      destroyed := fun h => absurd h hc.live
      reverse := hc.reverse
      acquired := hc.acquired
      done := fun step hstep hdone => (hc.done step hstep hdone).cons _
      live := hc.live
      known := by
        intro f hf h hh
        obtain rfl | hold := mem_cons.1 hf
        · cases hh
          exact Nat.lt_succ_self _
        · exact (hc.known f hold h hh).trans (Nat.lt_succ_self _)
      bound := fun h hh => (hc.bound h hh).trans (Nat.lt_succ_self _)
      listed := by
        intro h hmem
        obtain hnew | hold := mem_cons.1 hmem
        · cases hnew
          exact .inr (.inr rfl)
        rw [hrel]
        obtain hr | hl | hn := hc.listed h hold
        · exact .inl hr
        · exact .inr (.inl hl)
        · cases hn
      undone := fun step hstep hr => hc.undone step hstep ((hrel _).1 hr)
      accepting := hc.accepting
      holds := by
        rintro h ⟨⟩
        exact ⟨Nat.lt_succ_self _, fun hr => hfr ((hrel _).1 hr), hc.bound, hc.accepting hacc⟩
      aside := fun h => mem_cons_of_mem _ (hc.aside h) }

/-- The handle is registered as the newest step. -/
theorem Ledger.append (hc : Ledger (some h) c) (name : String) :
    Ledger none { c with steps := c.steps ++ [⟨name, h, false⟩] } := by
  obtain ⟨hbd, hfr, hlast, hopen⟩ := hc.holds h rfl
  have hnone : ∀ step ∈ c.steps ++ [⟨name, h, false⟩], step.done = false := by
    simpa [or_imp, forall_and] using hopen
  have hlist : (c.steps ++ [(⟨name, h, false⟩ : CleanupStep)]).map CleanupStep.handle =
      c.stepHandles ++ [h] := by simp [Core.stepHandles]
  exact
    { lawful := hc.lawful
      destroyed := hc.destroyed
      reverse := by
        refine ⟨(c.steps ++ [(⟨name, h, false⟩ : CleanupStep)]).length, fun i step hi => ?_⟩
        rw [hnone step (mem_of_getElem? hi)]
        simp only [Bool.false_eq_true, false_iff, not_le]
        exact (List.getElem?_eq_some_iff.1 hi).1
      acquired := by
        rw [Core.stepHandles, hlist, pairwise_append]
        exact ⟨hc.acquired, pairwise_singleton _ _, by simpa using hlast⟩
      done := fun step hstep hdone => absurd hdone (by simp [hnone step hstep])
      live := hc.live
      known := hc.known
      bound := by
        rw [Core.stepHandles, hlist]
        simpa [or_imp, forall_and] using ⟨hc.bound, hbd⟩
      listed := by
        intro h' hmem
        rw [Core.stepHandles, hlist]
        obtain hr | hl | hn := hc.listed h' hmem
        · exact .inl hr
        · exact .inr (.inl (mem_append_left _ hl))
        · cases hn
          exact .inr (.inl (mem_append_right _ (mem_singleton_self h)))
      undone := by
        intro step hstep hr
        obtain hold | hnew := mem_append.1 hstep
        · exact hc.undone step hold hr
        · obtain rfl := mem_singleton.1 hnew
          exact absurd hr hfr
      accepting := fun _ => hnone
      holds := by simp
      aside := hc.aside }

/-- A successful audit after a successful cleanup, at any moment. -/
theorem Ledger.audited (hc : Ledger held c) (hfr : ¬ Released c.trace h) :
    Orderly (c.traced (.audited h true)) :=
  { lawful := ⟨hfr, hc.lawful⟩
    destroyed := fun hd => absurd hd hc.live
    reverse := hc.reverse
    acquired := hc.acquired
    done := fun step hstep hdone => (hc.done step hstep hdone).cons _ }

variable {rest : List Effect} {steps : List CleanupStep} {step : CleanupStep}

/-- The held handle is released without having been registered. -/
theorem Ledger.releaseHeld (hc : Ledger (some h) c) (hcln : c.trace = .cleaned h true :: rest) :
    Ledger none (c.traced (.audited h true)) := by
  obtain ⟨hbd, hfr, hlast, hopen⟩ := hc.holds h rfl
  exact
    { hc.audited hfr with
      live := hc.live
      known := forall_mem_cons.2 ⟨by rintro _ ⟨⟩; exact hbd, hc.known⟩
      bound := hc.bound
      listed := by
        intro h' hmem
        have hold : .handed h' ∈ c.trace := by simpa [Core.traced] using hmem
        obtain hr | hl | hn := hc.listed h' hold
        · exact .inl (hr.cons _)
        · exact .inr (.inl hl)
        · cases hn
          exact .inl (released_cons.2 (.inl ⟨rfl, rest, hcln⟩))
      undone := by
        intro step hstep hr
        obtain ⟨heq, -⟩ | hold := released_cons.1 hr
        · cases heq
          exact absurd (hlast _ (mem_map_of_mem hstep)) (Nat.lt_irrefl _)
        · exact hc.undone step hstep hold
      accepting := hc.accepting
      holds := by simp
      aside := fun h => mem_cons_of_mem _ (hc.aside h) }

theorem getElem?_markDone (steps : List CleanupStep) (index i : Nat) :
    (markDone steps index)[i]? =
      steps[i]?.map fun step => if index = i then { step with done := true } else step := by
  rw [markDone, List.getElem?_modify]
  rfl

theorem mem_markDone {i : Nat} (h : (markDone steps index)[i]? = some step) :
    ∃ old, steps[i]? = some old ∧ step.handle = old.handle ∧
      (step.done = true ↔ index = i ∨ old.done = true) := by
  rw [getElem?_markDone, Option.map_eq_some_iff] at h
  obtain ⟨old, hold, rfl⟩ := h
  refine ⟨old, hold, ?_, ?_⟩ <;> split <;> simp_all

theorem map_handle_markDone (steps : List CleanupStep) (index : Nat) :
    (markDone steps index).map CleanupStep.handle = steps.map CleanupStep.handle := by
  refine ext_getElem? fun i => ?_
  rw [List.getElem?_map, List.getElem?_map, getElem?_markDone, Option.map_map]
  split <;> rfl

/-- The handle of a registered step is released, and the step is done: it is the last one that
was not. -/
theorem Ledger.releaseStep (hc : Ledger none c) (hacc : c.accepting = false)
    (hcln : c.trace = .cleaned step.handle true :: rest) (hstep : c.steps[index]? = some step)
    (hund : step.done = false)
    (habove : ∀ i later, index < i → c.steps[i]? = some later →
      later.done = true) : Ledger none { c with
      steps := markDone c.steps index
      trace := .audited step.handle true :: c.trace } := by
  have hmem := mem_of_getElem? hstep
  have hfr : ¬ Released c.trace step.handle := fun hr =>
    absurd (hc.undone step hmem hr) (by simp [hund])
  have hlist : (markDone c.steps index).map CleanupStep.handle = c.stepHandles :=
    map_handle_markDone c.steps index
  -- every step not after `index` was open
  obtain ⟨n, hn⟩ := hc.reverse
  have hlt : index < n := by
    by_contra hge
    exact absurd ((hn index step hstep).2 (Nat.le_of_not_lt hge)) (by simp [hund])
  have huniq : ∀ i old, c.steps[i]? = some old → old.handle = step.handle → index = i := by
    intro i old hold heq
    refine (List.getElem?_inj ?_ (hc.acquired.imp Nat.ne_of_lt)).1 ?_
    · simpa [Core.stepHandles] using (List.getElem?_eq_some_iff.1 hstep).1
    · simp [Core.stepHandles, hold, hstep, heq]
  exact
    { lawful := ⟨hfr, hc.lawful⟩
      destroyed := fun hd => absurd hd hc.live
      reverse := by
        refine ⟨index, fun i later hi => ?_⟩
        obtain ⟨old, hold, -, hdone⟩ := mem_markDone hi
        rw [hdone, hn i old hold]
        refine ⟨fun h => by omega, fun hle => ?_⟩
        obtain rfl | hgt := Nat.eq_or_lt_of_le hle
        · exact .inl rfl
        · exact .inr ((hn i old hold).1 (habove i old hgt hold))
      acquired := by
        rw [Core.stepHandles, hlist]
        exact hc.acquired
      done := by
        intro later hlater hdone
        obtain ⟨i, hi⟩ := mem_iff_getElem?.1 hlater
        obtain ⟨old, hold, hhd, hiff⟩ := mem_markDone hi
        rw [hhd]
        obtain rfl | hdone := hiff.1 hdone
        · obtain rfl := Option.some.inj (hstep.symm.trans hold)
          exact released_cons.2 (.inl ⟨rfl, rest, hcln⟩)
        · exact (hc.done old (mem_of_getElem? hold) hdone).cons _
      live := hc.live
      known := forall_mem_cons.2
        ⟨by rintro _ ⟨⟩; exact hc.bound _ (mem_map_of_mem hmem), hc.known⟩
      bound := by
        rw [Core.stepHandles, hlist]
        exact hc.bound
      listed := by
        intro h hmem
        rw [Core.stepHandles, hlist]
        exact (hc.listed h (by simpa using hmem)).imp_left fun hr => hr.cons _
      undone := by
        intro later hlater hr
        obtain ⟨i, hi⟩ := mem_iff_getElem?.1 hlater
        obtain ⟨old, hold, hhd, hiff⟩ := mem_markDone hi
        rw [hhd] at hr
        refine hiff.2 ?_
        obtain ⟨heq, -⟩ | hr := released_cons.1 hr
        · injection heq with heq
          exact .inl (huniq i old hold heq.symm)
        · exact .inr (hc.undone old (mem_of_getElem? hold) hr)
      accepting := fun h => absurd h (by simp [hacc])
      holds := by simp
      aside := fun h => mem_cons_of_mem _ (hc.aside h) }

/-- A removal without an error, of a record that may have been set aside before. -/
theorem Ledger.removed (hc : Ledger held c) : Ledger held c.removed := by
  by_cases hplace : c.place = .aside
  · exact hc.congr ⟨rfl, rfl, rfl, fun _ => hplace⟩ (if_pos hplace) hc.live
  · exact hc.push ⟨rfl, rfl, rfl, fun h => by simp [Core.removed, hplace] at h⟩ (if_neg hplace)
      hc.live trivial (by simp [Effect.handle?]) (by simp) (by simp)

theorem Ledger.removalFailed (hc : Ledger held c) (left : Place) :
    Ledger held (c.removalFailed left) := by
  by_cases hleft : c.place = .kept ∧ left = .aside
  · have hpush : Ledger held (c.traced .recordAside) :=
      hc.push ⟨rfl, rfl, rfl, id⟩ rfl hc.live trivial (by simp [Effect.handle?]) (by simp)
        (by simp)
    have heq : c.removalFailed left = { c.traced .recordAside with place := .aside } := by
      simp [Core.removalFailed, Core.traced, hleft]
    rw [heq]
    refine { hpush with holds := fun h hh => ?_, aside := fun _ => mem_cons_self }
    obtain ⟨hbd, hfr, hlast, hopen⟩ := hpush.holds h hh
    exact ⟨hbd, hfr, hlast, hopen⟩
  · refine hc.congr ⟨rfl, rfl, rfl, fun h => ?_⟩ (if_neg hleft) hc.live
    change (if c.place = .kept then left else c.place) = .aside at h
    split at h
    · rename_i hplace
      exact absurd ⟨hplace, h⟩ hleft
    · exact h

/-- A removal without an error removes the record, unless it was set aside. -/
theorem Ledger.removed_mem (hc : Ledger held c) (hleft : .recordAside ∉ c.removed.trace) :
    .recordRemoved ∈ c.removed.trace := by
  by_cases hplace : c.place = .aside
  · rw [show c.removed.trace = c.trace from if_pos hplace] at hleft
    exact absurd (hc.aside hplace) hleft
  · rw [show c.removed.trace = .recordRemoved :: c.trace from if_neg hplace]
    exact mem_cons_self

/-! ## The programs -/

theorem Ledger.returns (hc : Ledger held c) (e : Option Err) :
    Safe (coreRules anyChoice) Orderly (pure e) (fun _ => Ledger held) c :=
  core_pure.2 ⟨hc.toOrderly, hc⟩

theorem Ledger.appendStep (hc : Ledger (some h) c) (name : String) (e : Option Err) :
    Safe (coreRules anyChoice) Orderly (do call (.appendStep ⟨name, h, false⟩); return e)
      (fun _ => Ledger none) c :=
  core_call.2 ⟨hc.toOrderly, fun _ _ => (hc.append name).returns e⟩

/-- Running the cleanup of a handle that is not released. -/
theorem Ledger.cleaned (hc : Ledger held c) (hfr : ¬ Released c.trace h) (hbd : h < c.handles)
    (ok : Bool) : Ledger held (c.traced (.cleaned h ok)) :=
  hc.push ⟨rfl, rfl, rfl, id⟩ rfl hc.live hfr (by rintro _ ⟨⟩; exact hbd) (by simp) (by simp)

theorem Ledger.auditFailed (hc : Ledger held c) (hfr : ¬ Released c.trace h)
    (hbd : h < c.handles) : Ledger held (c.traced (.audited h false)) :=
  hc.push ⟨rfl, rfl, rfl, id⟩ rfl hc.live hfr (by rintro _ ⟨⟩; exact hbd) (by simp) (by simp)

theorem not_released_cleaned {b} (hl : ¬ Released l h) : ¬ Released (.cleaned h b :: l) h := by
  rwa [released_cons_iff (by simp)]

theorem Ledger.register (hc : Ledger (some h) c) (name : String) :
    Safe (coreRules anyChoice) Orderly (register ⟨name, h, false⟩) (fun _ => Ledger none) c := by
  obtain ⟨hbd, hfr, -, -⟩ := hc.holds h rfl
  refine core_call.2 ⟨hc.toOrderly, fun x _ => ?_⟩
  simp only [Core.exec]
  cases x.operation with
  | none => exact hc.appendStep name none
  | some =>
    refine core_cleanup hc.toOrderly fun cleaned _ => ?_
    have hcln := hc.cleaned hfr hbd cleaned
    have hfr' := not_released_cleaned (b := cleaned) hfr
    cases cleaned with
    | false => exact hcln.appendStep name _
    | true =>
      refine core_audit hcln.toOrderly fun audited _ => ?_
      cases audited with
      | false => exact (hcln.auditFailed hfr' hbd).appendStep name _
      | true => exact (hcln.releaseHeld rfl).returns _

/-- The actor calls an allocator: it comes to hold a handle exactly when both functions are
there. -/
theorem Ledger.allocate (hc : Ledger none c) (hacc : c.accepting = true) (resource : String) :
    Safe (coreRules anyChoice) Orderly (allocate resource) (fun _ => Ledger none) c := by
  have hheld : Ledger (some c.handles) c.handed := hc.handed hacc
  refine core_allocate hc.toOrderly (fun err => ?_) fun a ha => ?_
  · cases err with
    | some => exact hheld.appendStep resource _
    | none => exact hheld.register resource
  · obtain ⟨cleanup, audit, err⟩ := a
    cases err <;> cases cleanup <;> cases audit <;> first | exact hc.returns _ | cases ha

theorem Ledger.acquire (hc : Ledger none c) (resource : String) :
    Safe (coreRules anyChoice) Orderly (acquire resource) (fun _ => Ledger none) c := by
  refine core_call.2 ⟨hc.toOrderly, fun _ _ => ?_⟩
  split
  · exact hc.returns _
  rename_i hacc
  have hacc : c.accepting = true := by simpa [Core.exec] using hacc
  refine core_call.2 ⟨hc.toOrderly, fun _ _ => ?_⟩
  split
  · exact hc.returns _
  · refine core_call.2 ⟨hc.toOrderly, fun _ _ => ?_⟩
    split
    · exact hc.returns _
    · exact hc.allocate hacc resource

/-- **The loop over the steps**: below the index they are as they were read, from the index on
they are done. -/
theorem Ledger.cleanupSteps (hc : Ledger none c) (hacc : c.accepting = false)
    (hbelow : ∀ i < index, c.steps[i]? = steps[i]?)
    (hdone : ∀ i step, index ≤ i → c.steps[i]? = some step →
      step.done = true) : Safe (coreRules anyChoice) Orderly (cleanupSteps steps index)
      (fun completed c => Ledger none c ∧
        (completed = true → ∀ step ∈ c.steps, step.done = true)) c := by
  induction index generalizing c with
  | zero =>
    refine core_pure.2 ⟨hc.toOrderly, hc, fun _ step hstep => ?_⟩
    obtain ⟨i, hi⟩ := mem_iff_getElem?.1 hstep
    exact hdone i step i.zero_le hi
  | succ index ih =>
    have hbelow' : ∀ i < index, c.steps[i]? = steps[i]? := fun i hi =>
      hbelow i (hi.trans (Nat.lt_succ_self _))
    have hidx : c.steps[index]? = steps[index]? := hbelow index (Nat.lt_succ_self _)
    -- a step that is passed over is done
    have hskip : (∀ step, steps[index]? = some step → step.done = true) →
        ∀ i step, index ≤ i → c.steps[i]? = some step →
          step.done = true := by
      intro hpass i step hle hi
      obtain rfl | hgt := Nat.eq_or_lt_of_le hle
      · exact hpass step (hidx ▸ hi)
      · exact hdone i step hgt hi
    unfold Session.cleanupSteps
    split
    · rename_i hnone
      exact ih hc hacc hbelow' (hskip fun step hstep => by simp [hnone] at hstep)
    rename_i step hsome
    split
    · rename_i hstep
      refine ih hc hacc hbelow' (hskip fun step' hstep' => ?_)
      obtain rfl := Option.some.inj (hsome.symm.trans hstep')
      exact hstep
    · rename_i hstep
      have hstep : step.done = false := by simpa using hstep
      have hat : c.steps[index]? = some step := hidx.trans hsome
      have hmem := mem_of_getElem? hat
      have hfr : ¬ Released c.trace step.handle := fun hr =>
        absurd (hc.undone step hmem hr) (by simp [hstep])
      have hbd := hc.bound _ (mem_map_of_mem hmem)
      refine core_cleanup hc.toOrderly fun cleaned _ => ?_
      have hcln := hc.cleaned hfr hbd cleaned
      have hfr' := not_released_cleaned (b := cleaned) hfr
      cases cleaned with
      | false => exact core_pure.2 ⟨hcln.toOrderly, hcln, by simp⟩
      | true =>
        refine core_audit hcln.toOrderly fun audited _ => ?_
        cases audited with
        | false =>
          have hfail := hcln.auditFailed hfr' hbd
          exact core_pure.2 ⟨hfail.toOrderly, hfail, by simp⟩
        | true =>
          have hmark := hcln.releaseStep hacc rfl hat hstep hdone
          refine core_call.2 ⟨hcln.audited hfr', fun _ _ => ih hmark hacc ?_ ?_⟩
          · intro i hi
            change (markDone c.steps index)[i]? = _
            rw [getElem?_markDone, hbelow' i hi]
            simp [Nat.ne_of_gt hi]
          · intro i later hle hi
            obtain ⟨old, hold, -, hiff⟩ := mem_markDone hi
            refine hiff.2 ?_
            obtain rfl | hgt := Nat.eq_or_lt_of_le hle
            · exact .inl rfl
            · exact .inr (hdone i old hgt hold)

/-- A transition that does not end the session says nothing about resources. -/
theorem Ledger.advance {m} (hm : m.NotTerminal) (hc : Ledger none c) :
    Safe (coreRules anyChoice) Orderly (advance m) (fun _ => Ledger none) c := by
  have htick : Ledger none c.tick := hc.congr ⟨rfl, rfl, rfl, id⟩ rfl hc.live
  refine core_advance hc.toOrderly htick.toOrderly (fun _ _ _ _ => htick) fun x e _ hmade => ?_
  have hph := move_phase_ne hm hmade
  have hpush : ∀ c', SameSteps c c' →
      c'.trace = .appended e m.cleanupOwned :: c.trace → c'.session.phase ≠ .destroyed →
      Ledger none c' := fun c' hsame htr hlive =>
    hc.push hsame htr hlive (fun h => absurd h hph) (by simp [Effect.handle?]) (by simp)
      (by simp)
  have hmoved := hpush (c.tick.appended m e (c.session.record e)) ⟨rfl, rfl, rfl, id⟩ rfl hph
  refine ⟨hmoved.toOrderly, fun err _ _ => ?_, fun _ _ => ?_⟩
  · have hback := hpush ((c.tick.appended m e (c.session.record e)).restored c.session)
      ⟨rfl, rfl, rfl, id⟩ rfl hc.live
    exact ⟨hback.toOrderly, hback⟩
  have hsaved := hpush (c.tick.appended m e (c.session.record e)).saved ⟨rfl, rfl, rfl, id⟩ rfl hph
  refine (core_publish (fun _ h => h.toOrderly) (fun c h => ?_) hsaved).post
    fun _ _ h => ⟨h.toOrderly, h⟩
  exact h.push ⟨rfl, rfl, rfl, id⟩ rfl h.live (fun hd => absurd hd hph) (by simp [Effect.handle?])
    (by simp) (by simp)

/-- What cleanup comes back with: the session is destroyed, or the actor goes on. -/
def CleanedUp (r : Snapshot × Option Err) (c : Core) : Prop :=
  match r.2 with
  | none => Orderly c
  | some _ => Ledger none c

/-- An effect that is not about a handle. -/
theorem Orderly.push (hc : Orderly c) (hsame : SameSteps c c') (htr : c'.trace = f :: c.trace)
    (hf : f.MayFollow c.trace) (hhand : ∀ h, f ≠ .handed h)
    (hdest : c'.session.phase = .destroyed → Settled c.trace) : Orderly c' where
  lawful := by
    rw [htr]
    exact ⟨hf, hc.lawful⟩
  destroyed := by
    rw [htr]
    exact fun h => (hdest h).cons hhand
  reverse := by
    rw [hsame.steps]
    exact hc.reverse
  acquired := by
    rw [Core.stepHandles, hsame.steps]
    exact hc.acquired
  done := by
    rw [htr, hsame.steps]
    exact fun step hstep hdone => (hc.done step hstep hdone).cons f

theorem Ledger.destroy (hc : Ledger none c) (hacc : c.accepting = false)
    (current : Snapshot) :
    Safe (coreRules anyChoice) Orderly (destroy current) CleanedUp c := by
  refine core_destroy hc.toOrderly ((hc.cleanupSteps hacc (fun _ _ => rfl) ?_).post ?_)
  · intro i step hle hi
    exact absurd (List.getElem?_eq_some_iff.1 hi).1 (Nat.not_lt.2 hle)
  intro completed c hc
  obtain ⟨hc, hdone⟩ := hc
  cases completed with
  | false => exact ⟨hc.toOrderly, hc⟩
  | true =>
    have hfail := hc.removalFailed
    have hrem := hc.removed
    have htick : Ledger none c.removed.tick := hrem.congr ⟨rfl, rfl, rfl, id⟩ rfl hrem.live
    have hsett : Settled c.removed.trace := by
      refine ⟨fun h hmem => ?_, hc.removed_mem⟩
      obtain hr | hl | hn := hrem.listed h hmem
      · exact hr
      · obtain ⟨step, hstep, rfl⟩ := mem_map.1 hl
        exact hrem.done step hstep (hdone rfl step hstep)
      · cases hn
    refine ⟨hc.toOrderly, fun x _ _ => ⟨(hfail _).toOrderly, hfail _⟩,
      ⟨hrem.toOrderly, htick.toOrderly⟩, fun _ _ _ _ => htick, fun x e _ _ => ?_⟩
    have hend : Orderly (c.removed.tick.appended destroyedMove e (c.session.record e)) :=
      htick.toOrderly.push ⟨rfl, rfl, rfl, id⟩ rfl (fun _ => hsett) (by simp)
        fun _ => hsett
    refine (core_publish (P := fun c => Orderly c ∧ Settled c.trace) (fun _ h => h.1)
      (fun c h => ⟨?_, h.2.cons (by simp)⟩) ⟨hend, hsett.cons (by simp)⟩).post
      fun _ _ h => ⟨h.1, h.1⟩
    exact h.1.push ⟨rfl, rfl, rfl, id⟩ rfl (fun _ => h.2) (by simp) fun _ => h.2

theorem Ledger.stop (hc : Ledger none c) : Ledger none c.stopped :=
  { lawful := hc.lawful, destroyed := hc.destroyed, reverse := hc.reverse, acquired := hc.acquired,
    done := hc.done, live := hc.live, known := hc.known, bound := hc.bound, listed := hc.listed,
    undone := hc.undone, accepting := (fun h => by cases h), holds := by simp,
    aside := hc.aside }

theorem exec_accepting {o : Op} (ho : o.area ≠ .resource) (x : Choice) (c : Core) :
    (c.exec o x).2.accepting = c.accepting := by
  cases o with
  | stopAccepting | allocate | cleanup | audit | appendStep | markDone => exact absurd rfl ho
  | move | remove =>
    simp only [Core.exec]
    split <;> rfl
  | save =>
    simp only [Core.exec]
    split
    · rfl
    · split <;> rfl
  | _ => rfl

/-- Entering a phase of cleanup, with registration at an end. -/
theorem Ledger.enter {target} (htgt : target ≠ .destroyed) (hc : Ledger none c)
    (hacc : c.accepting = false) :
    Safe (coreRules anyChoice) Orderly (Session.advance (.lifecycle target true))
      (fun _ c => Ledger none c ∧ c.accepting = false) c := by
  have hstays : Safe (coreRules anyChoice) (fun c => c.accepting = false)
      (Session.advance (.lifecycle target true)) (fun _ c => c.accepting = false) c := by
    refine .of_uses (advance_within _) (fun _ h => h) (fun _ _ h hr => hr ▸ h)
      (fun o x c ho _ h => ?_) hacc
    rwa [show (coreRules anyChoice).exec o x c = c.exec o x from rfl, exec_accepting ?_]
    rintro harea
    simp [harea] at ho
  exact ((hc.advance (m := .lifecycle target true) fun _ => htgt).and hstays).mono
    (fun _ h => h.1) fun _ _ h => h

theorem Ledger.cleanupEntry (hc : Ledger none c) :
    Safe (coreRules anyChoice) Orderly cleanupEntry CleanedUp c := by
  refine core_cleanupEntry (P := fun c => Ledger none c ∧ c.accepting = false)
    (fun _ h => h.1.toOrderly) (fun target c htgt hc => ?_)
    (fun current _ hc => hc.1.destroy hc.2 current) hc.toOrderly ⟨hc.stop, rfl⟩
  have hnot : target ≠ .destroyed := by obtain rfl | rfl := htgt <;> decide
  refine (hc.1.enter hnot hc.2).post fun r c h => ?_
  obtain ⟨last, _ | e⟩ := r
  · exact h
  · exact ⟨h.1.toOrderly, h.1⟩

theorem Ledger.handles : Handles (coreRules anyChoice) Orderly (Ledger none) :=
  core_handles (fun _ h => h.toOrderly)
    (fun _ _ hm h => h.advance (Move.notTerminal_of_not_cleanupOwned hm))
    fun resource _ h => h.acquire resource

theorem Ledger.handle (hc : Ledger none c) (cmd : Command) :
    Safe (coreRules anyChoice) Orderly (handle cmd)
      (fun b c => if b then Orderly c else Ledger none c) c := by
  cases cmd with
  | cleanup attempt =>
    refine core_handleCleanup (fun _ h => h.toOrderly) (fun _ h => h)
      (hc.cleanupEntry.post fun r c h => ?_)
    obtain ⟨last, _ | e⟩ := r
    · have hfin : Orderly (c.finished last) :=
        ⟨h.lawful, h.destroyed, h.reverse, h.acquired, h.done⟩
      have hans : Orderly ((c.finished last).traced (.completed attempt ⟨last, none, none⟩)) :=
        hfin.push ⟨rfl, rfl, rfl, id⟩ rfl trivial (by simp) hfin.destroyed
      exact ⟨h, hfin, hans, hans.lawful, hans.destroyed, hans.reverse, hans.acquired, hans.done⟩
    · exact ⟨h.toOrderly, h.push ⟨rfl, rfl, rfl, id⟩ rfl h.live trivial (by simp [Effect.handle?])
        (by simp) (by simp)⟩
  | _ => exact Ledger.handles.handle _ (by simp) hc

theorem Ledger.created {w} (h : Created w) : Ledger none w.core := by
  obtain ⟨id, ownerUID, role, now, s, hs, -, rfl⟩ := h
  obtain ⟨-, -, -, rfl⟩ := newOwned_eq_ok.1 hs
  exact
    { lawful := trivial
      destroyed := fun h => by cases h
      reverse := ⟨0, fun i step hi => by cases hi⟩
      acquired := .nil
      done := fun step hstep => by cases hstep
      live := fun h => by cases h
      known := fun f hf => by cases hf
      bound := fun h hh => by cases hh
      listed := fun h hh => by cases hh
      undone := fun step hstep => by cases hstep
      accepting := fun _ step hstep => by cases hstep
      holds := fun h hh => by cases hh
      aside := fun h => by cases h }

theorem Ledger.keeps : manager.Keeps anything Created (fun w => Orderly w.core)
    (fun w => Ledger none w.core) (fun w => Orderly w.core) :=
  manager_keeps (fun _ _ _ _ => trivial) (fun _ => .created) (fun _ h => h.toOrderly)
    (fun _ h => h) fun cmd _ hc => hc.handle cmd

/-! ## The order of cleanup in every run -/

/-- **The order of cleanup.** In every reachable state the trace is lawful; a destroyed session
has everything released and its record removed, unless a failed removal has left the record aside;
the completed steps are a suffix of the step list, which is in the order of acquisition; and a
completed step is released, so that nothing of it runs again. -/
theorem cleanup_order {w : World} {t : Thread Op Res} (h : Reach manager anything Created (w, t)) :
    Lawful w.core.trace ∧
    (w.core.session.phase = .destroyed → Settled w.core.trace) ∧
    (∃ n, ∀ (i : Nat) (step : CleanupStep), w.core.steps[i]? = some step →
      (step.done = true ↔ n ≤ i)) ∧
    (w.core.steps.map CleanupStep.handle).Pairwise (· < ·) ∧
    (∀ step ∈ w.core.steps, step.done = true → Released w.core.trace step.handle) := by
  have hord : Orderly w.core := h.inv Ledger.keeps
  exact ⟨hord.lawful, hord.destroyed, hord.reverse, hord.acquired, hord.done⟩

/-- A resource is acquired, and released by a cleanup whose first audit fails. -/
def acquireRun : List (Act Choice Input) :=
  [.env .lookup, .env (.request (.acquire "disk")), .take .command] ++ operations 8 ++ [.rest] ++
  [.env .beginCleanup, .env (.enqueue 0), .take .command] ++ operations 16 ++
  [.op { ok := false }] ++ operations 2 ++ [.rest] ++
  [.env .beginCleanup, .env (.enqueue 1), .take .command] ++ operations 15 ++ [.rest]

theorem cleanup_order_retried : ∃ w t, Reach manager anything Created (w, t) ∧
    (w.core.session.phase = .destroyed ∧ .handed 0 ∈ w.core.trace) ∧ Settled w.core.trace := by
  obtain ⟨w, t, h, hw⟩ := reach_startWorld
    (P := fun w _ => w.core.session.phase = .destroyed ∧ .handed 0 ∈ w.core.trace)
    (fun _ _ => true) (fun act c _ => Guard.permits_free act c) acquireRun (by decide +kernel)
  exact ⟨w, t, h, hw, (cleanup_order h).2.1 hw.1⟩

/-- A cleanup whose removal fails and leaves the record aside, and another one. -/
def asideRun : List (Act Choice Input) :=
  [.env .lookup, .env .beginCleanup, .env (.enqueue 0), .take .command] ++ operations 15 ++
  [.op { ok := false, left := .aside }] ++ operations 2 ++ [.rest] ++
  [.env .beginCleanup, .env (.enqueue 1), .take .command] ++ operations 12 ++ [.rest]

/-- **A session that is destroyed with its record.** The second removal does not find the
directory, the terminal event is written, and the record stays under the other name. -/
theorem destroyed_with_record : ∃ w t, Reach manager anything Created (w, t) ∧
    w.core.session.phase = .destroyed ∧ w.core.place = .aside ∧
    .recordRemoved ∉ w.core.trace :=
  reach_startWorld (P := fun w _ => w.core.session.phase = .destroyed ∧ w.core.place = .aside ∧
    .recordRemoved ∉ w.core.trace)
    (fun _ _ => true) (fun act c _ => Guard.permits_free act c) asideRun (by decide +kernel)

/-! ## Between two commands -/

def Thread.waits : Thread Op Res → Bool
  | .idle => true
  | _ => false

/-- **No resource is lost.** Whenever the actor waits for its next command the session is not
destroyed; every handle a provider has handed out is either released, with its audit, or has a
cleanup step still to run, and never both. -/
theorem resources_accounted {w : World} {t : Thread Op Res}
    (h : Reach manager anything Created (w, t)) (ht : Thread.waits t = true) :
    w.core.session.phase ≠ .destroyed ∧
    ∀ k, .handed k ∈ w.core.trace →
      (Released w.core.trace k ↔ ¬ ∃ step ∈ w.core.steps, step.handle = k ∧ step.done = false) := by
  obtain rfl : t = .idle := by cases t <;> first | rfl | cases ht
  have hled : Ledger none w.core := h.holds Ledger.keeps
  refine ⟨hled.live, fun k hk => ⟨?_, fun hnone => ?_⟩⟩
  · rintro hrel ⟨step, hstep, rfl, hopen⟩
    have hdone : step.done = true := hled.undone step hstep hrel
    simp [hopen] at hdone
  · by_contra hnot
    obtain hrel | hmem | hheld := hled.listed k hk
    · exact hnot hrel
    · obtain ⟨step, hstep, rfl⟩ := List.mem_map.1 hmem
      -- A completed step would have been released.
      have hopen : step.done = false := by
        by_contra hdone
        exact hnot (hled.done step hstep (Bool.not_eq_false _ ▸ hdone))
      exact hnone ⟨step, hstep, rfl, hopen⟩
    · cases hheld

/-- A cleanup whose audit fails leaves the resource to the next one. -/
theorem resources_accounted_refused : ∃ w t, Reach manager anything Created (w, t) ∧
    Thread.waits t = true ∧ .handed 0 ∈ w.core.trace ∧ ¬ Released w.core.trace 0 := by
  obtain ⟨w, t, h, ht, hhand, hopen⟩ := reach_startWorld
    (P := fun w t => Thread.waits t = true ∧ .handed 0 ∈ w.core.trace ∧
      ∃ step ∈ w.core.steps, step.handle = 0 ∧ step.done = false)
    (fun _ _ => true) (fun act c _ => Guard.permits_free act c) (acquireRun.take 35)
    (by decide +kernel)
  exact ⟨w, t, h, ht, hhand, fun hrel => ((resources_accounted h ht).2 0 hhand).1 hrel hopen⟩

end PrivateVm.Session
