import PrivateVm.Torrent.World

set_option autoImplicit false

/-! # What one step can do to the controller

`Turn` has one case for each way a stretch under the lock can end, with the calls it then makes.
`World.step_turn` proves that there are no others, and every invariant is proved by cases on it.
-/

namespace PrivateVm.Torrent

open Program Method

/-! ## The cases -/

/-- A call that asks for something and changes nothing. -/
def Entry.observes : Entry → Bool
  | .status _ | .capacityBytes _ => true
  | _ => false

/-- A call that `add` makes. -/
def Entry.adds : Entry → Bool
  | .addPaused _ _ | .pause _ | .metadata _ | .wait _ => true
  | .setSelection selected _ _ => selected.isEmpty
  | _ => false

/-- What `add` can make of the controller. -/
inductive Adding (c : Controller) : Controller → Prop
  | refused : Adding c c
  | fetching {handle : Handle} (hvalid : handle.valid = true) :
      Adding c { c with handle := handle, state := .metadataFetching }
  | fetched {handle : Handle} {metadata : Metadata} (hvalid : handle.valid = true) :
      Adding c { c with handle := handle, metadata := metadata, state := .selectionRequired }

def Controller.mayStart (c : Controller) : Prop :=
  c.closed = false ∧ (c.state = .capacityVerified ∨ c.state = .paused) ∧ c.plan.selectedBytes ≠ 0

def Controller.maySelect (c : Controller) : Prop :=
  c.closed = false ∧ (c.state = .selectionRequired ∨ c.state = .capacityVerified)

/-- The calls of `close`, newest first: a pause unless the quarantine is sealed, and a shutdown
unless the client is down. -/
structure CloseCalls (c : Controller) (paused down : Option (Except Fault Unit)) : Prop where
  paused : paused.isSome = (c.handle.valid && c.state ≠ .sealed)
  down : down.isSome = (c.handle.valid && !c.clientDown)

def closeEntries (paused : Option (Except Fault Unit)) (down : Option (Except Fault Unit × Bool)) :
    List Entry :=
  (down.map fun r => Entry.shutdown r.1 r.2).toList ++ (paused.map Entry.pause).toList

theorem mem_closeEntries {paused down e} (he : e ∈ closeEntries paused down) :
    (∃ r, e = .pause r) ∨ ∃ r effect, e = .shutdown r effect := by
  simp only [closeEntries, List.mem_append, Option.mem_toList, Option.map_eq_some_iff] at he
  rcases he with ⟨r, _, rfl⟩ | ⟨r, _, rfl⟩
  · exact .inr ⟨_, _, rfl⟩
  · exact .inl ⟨_, rfl⟩

/-- **The turns.** -/
inductive Turn (U : Unicode) (i : Input) (c : Controller) (log : List Entry) :
    Controller → List Entry → Prop
  | quiet : Turn U i c log c log
  | observed {e : Entry} (progress : Progress) (hclosed : c.closed = false)
      (hstate : c.state ≠ .sealed) (he : e.observes = true) :
      Turn U i c log { c with progress := progress } (e :: log)
  | adding {c' : Controller} {entries : List Entry} (hclosed : c.closed = false)
      (hstate : c.state = .empty) (hentries : ∀ e ∈ entries, e.adds = true)
      (hadding : Adding c c') : Turn U i c log c' (entries ++ log)
  | selectFailed {indexes : List UInt32} {fault : Fault} {enabled : Finset UInt32} {bytes : UInt64}
      (hselect : c.maySelect) : Turn U i c log c
        (.setSelection indexes (.error fault) enabled :: .capacityBytes (.ok bytes) :: log)
  | selected {indexes : List UInt32} {evidence : CapacityEvidence} {bytes : UInt64}
      {metadata : Metadata} {plan : CapacityPlan} (hselect : c.maySelect)
      (hplan : evidence.planSelection c.metadata indexes bytes c.config.safePolicy =
        .ok (metadata, plan)) :
      Turn U i c log
        { c with
          metadata := metadata
          plan := plan
          progress := ⟨0, plan.selectedBytes⟩
          state := .capacityVerified }
        (.setSelection indexes (.ok ()) indexes.toFinset :: .capacityBytes (.ok bytes) :: log)
  | startFailed {fault : Fault} (hstart : c.mayStart) :
      Turn U i c log c (.start (.error fault) :: log)
  | started (hstart : c.mayStart) :
      Turn U i c log { c with state := .downloading } (.start (.ok ()) :: log)
  | paused (hclosed : c.closed = false) (hstate : c.state = .downloading ∨ c.state = .paused) :
      Turn U i c log { c with state := .paused } (.pause (.ok ()) :: log)
  | pauseFailed {fault : Fault} (hclosed : c.closed = false)
      (hstate : c.state = .downloading ∨ c.state = .paused) :
      Turn U i c log c (.pause (.error fault) :: log)
  | vpnPaused (hi : i = .onVPNLoss) (hstate : c.state = .downloading) :
      Turn U i c log { c with state := .paused } (.pause (.ok ()) :: log)
  | vpnPauseFailed {fault : Fault} (hi : i = .onVPNLoss) (hstate : c.state = .downloading) :
      Turn U i c log c (.pause (.error fault) :: log)
  | failed {result : Except Fault Unit} {status : Except Fault ClientStatus} (progress : Progress)
      (hclosed : c.closed = false) (hstate : c.state = .downloading) :
      Turn U i c log { c with progress := progress, state := .paused }
        (.pause result :: .status status :: log)
  | stale {l : Nat} {result : Except Fault Unit} (hi : i = .fail l) :
      Turn U i c log { c with state := .paused } (.pause result :: log)
  | completed {status : ClientStatus} (hclosed : c.closed = false)
      (hstate : c.state = .downloading) :
      Turn U i c log { c with progress := status.progress, state := .downloadComplete }
        (.pause (.ok ()) :: .status (.ok status) :: log)
  | completePauseFailed {fault : Fault} {status : ClientStatus} (hclosed : c.closed = false)
      (hstate : c.state = .downloading) :
      Turn U i c log { c with progress := status.progress }
        (.pause (.error fault) :: .status (.ok status) :: log)
  | verifyFailed {result : Except Fault (List FileDigest)} (hclosed : c.closed = false)
      (hstate : c.state = .downloadComplete) (hup : c.clientDown = false)
      (hresult : ∀ files manifest, result = .ok files →
        matchingManifest U c.metadata files ≠ .ok manifest) :
      Turn U i c log c (.verifyCompleted c.metadata result :: log)
  | shutdownFailed {files : List FileDigest} {manifest : Manifest} {fault : Fault}
      {tookEffect : Bool} (hclosed : c.closed = false) (hstate : c.state = .downloadComplete)
      (hup : c.clientDown = false) (hmatch : matchingManifest U c.metadata files = .ok manifest) :
      Turn U i c log c (.shutdown (.error fault) tookEffect ::
        .verifyCompleted c.metadata (.ok files) :: log)
  | sealedClient {files : List FileDigest} {manifest : Manifest} {result : Except Fault Unit}
      (hclosed : c.closed = false) (hstate : c.state = .downloadComplete)
      (hup : c.clientDown = false) (hmatch : matchingManifest U c.metadata files = .ok manifest) :
      Turn U i c log
        { c with
          state := if result.isOk then .sealed else .sealing
          manifest := manifest
          clientDown := true }
        (.syncAndUnmount result :: .shutdown (.ok ()) true ::
          .verifyCompleted c.metadata (.ok files) :: log)
  | resealed {result : Except Fault Unit} (hseal : c.maySeal = true) (hdown : c.clientDown = true) :
      Turn U i c log { c with state := if result.isOk then .sealed else .sealing }
        (.syncAndUnmount result :: log)
  | closeFailed {paused : Option (Except Fault Unit)} {down : Option (Except Fault Unit × Bool)}
      (hclosed : c.closed = false) (hcalls : CloseCalls c paused (down.map Prod.fst))
      (hfailed : (∃ fault, paused = some (.error fault)) ∨
        ∃ fault effect, down = some (.error fault, effect)) :
      Turn U i c log
        { c with clientDown := c.clientDown || (down.any fun r => r.1.isOk) || !c.handle.valid }
        (closeEntries paused down ++ log)
  | closed {paused : Option (Except Fault Unit)} {down : Option (Except Fault Unit × Bool)}
      (hclosed : c.closed = false) (hcalls : CloseCalls c paused (down.map Prod.fst))
      (hpaused : ∀ r, paused = some r → r = .ok ())
      (hdown : ∀ r, down = some r → r = (.ok (), true)) :
      Turn U i c log ({ c with clientDown := true } : Controller).cleared
        (closeEntries paused down ++ log)
  | destroyed {result : Except Fault Unit} (hi : i = .destroyForReceipt) :
      Turn U i c log c (.destroyAndAudit result :: log)

/-! ## Every method takes one of them -/

section

variable {U : Unicode} {i : Input} {c : Controller} {log : List Entry} {α β : Type} {o : Op}

variable {f : o.Res → Action β} {Q : Except Error β → Controller → List Entry → Prop}

theorem does_call_bind (hf : ∀ x, Does exec (f (o.answer x)) Q c (o.entry x :: log)) :
    Does exec (call o >>= f) Q c log :=
  does_invoke_bind hf

theorem does_call_cases (herr : ∀ (x : Answer) fault, Does exec
      (f (o.answer { x with fault := some fault })) Q c
      (o.entry { x with fault := some fault } :: log))
    (hok : ∀ x : Answer, Does exec (f (o.answer { x with fault := none })) Q c
      (o.entry { x with fault := none } :: log)) : Does exec (call o >>= f) Q c log := by
  refine does_call_bind fun x => ?_
  cases hx : x.fault with
  | some fault =>
    have h := herr x fault
    rwa [← hx] at h
  | none =>
    have h := hok x
    rwa [← hx] at h

/-- A method whose every run is a turn. -/
def TakesTurn (U : Unicode) (i : Input) (m : Action α) : Prop :=
  ∀ c log, Does exec m (fun _ c' log' => Turn U i c log c' log') c log

theorem takesTurn_look {p : Controller → Prop} [DecidablePred p] {e} {f : Controller → α} :
    TakesTurn U i (do let c ← get if p c then throw e else return f c) := by
  intro c log
  refine does_get_bind ?_
  split
  · exact does_throw .quiet
  · exact does_pure .quiet

theorem start_turn : TakesTurn U i Controller.start := by
  intro c log
  refine does_get_bind ?_
  split
  · exact does_throw .quiet
  rename_i hstart
  have hmay : c.mayStart := by
    simp only [not_or, Bool.not_eq_true] at hstart
    exact ⟨hstart.1, by tauto, hstart.2.2⟩
  refine does_call_cases (fun x fault => ?_) fun x => ?_
  · exact does_throw (.startFailed hmay)
  · exact does_modify (.started hmay)

theorem pause_turn : TakesTurn U i Controller.pause := by
  intro c log
  refine does_get_bind ?_
  split
  · exact does_throw .quiet
  rename_i hpause
  simp only [not_or, Bool.not_eq_true] at hpause
  have hstate : c.state = .downloading ∨ c.state = .paused := by tauto
  refine does_call_cases (fun x fault => ?_) fun x => ?_
  · exact does_throw (.pauseFailed hpause.1 hstate)
  · exact does_modify (.paused hpause.1 hstate)

theorem onVPNLoss_turn : TakesTurn U .onVPNLoss Controller.onVPNLoss := by
  intro c log
  refine does_get_bind ?_
  split
  · exact does_pure .quiet
  · rename_i hstate
    refine does_call_cases (fun x fault => ?_) fun x => ?_
    · exact does_throw (.vpnPauseFailed rfl (not_not.1 hstate))
    · exact does_modify (.vpnPaused rfl (not_not.1 hstate))

theorem pauseAfterFailure_turn {l : Nat} : TakesTurn U (.fail l) Controller.pauseAfterFailure := by
  intro c log
  refine does_get_bind (does_call_bind fun x => ?_)
  exact does_modify (.stale rfl)

theorem select_turn {indexes evidence} : TakesTurn U i (Controller.select indexes evidence) := by
  intro c log
  refine does_get_bind ?_
  split
  · exact does_throw .quiet
  rename_i hselect
  have hmay : c.maySelect := by
    simp only [not_or, Bool.not_eq_true] at hselect
    exact ⟨hselect.1, by tauto⟩
  have hopen : c.state ≠ .sealed := by
    rcases hmay.2 with hstate | hstate <;> rw [hstate] <;> nofun
  refine does_call_cases (fun x fault => ?_) fun x => ?_
  · simp only [Op.answer, Answer.result]
    split <;> exact does_throw (.observed c.progress hmay.1 hopen rfl)
  · simp only [Op.answer, Answer.result]
    split
    · exact does_throw (.observed c.progress hmay.1 hopen rfl)
    · rename_i hplan
      refine does_call_cases (fun x fault => ?_) fun x => ?_
      · exact does_throw (.selectFailed hmay)
      · exact does_modify_bind (does_pure (.selected hmay hplan))

theorem currentStatus_turn : TakesTurn U i Controller.currentStatus := by
  intro c log
  refine does_get_bind ?_
  split
  · exact does_throw .quiet
  rename_i hclosed
  split
  · exact does_pure .quiet
  rename_i hstate
  have hclosed : c.closed = false := Bool.not_eq_true _ ▸ hclosed
  have hopen : c.state ≠ .sealed := by
    rw [not_not.1 hstate]
    nofun
  refine does_call_cases (fun x fault => ?_) fun x => ?_
  · exact does_throw (.observed c.progress hclosed hopen rfl)
  · simp only [Op.answer, Answer.result]
    split
    · exact does_throw (.observed c.progress hclosed hopen rfl)
    · exact does_modify_bind (does_pure (.observed _ hclosed hopen rfl))

/-- What the rounds of `add` do: they make calls of `add`, and at their end the metadata is
stored or nothing is. -/
def Fetched (c : Controller) (log : List Entry) (c' : Controller) (log' : List Entry) : Prop :=
  ∃ entries, log' = entries ++ log ∧ (∀ e ∈ entries, e.adds = true) ∧
    (c' = c ∨ ∃ metadata, c' = { c with metadata := metadata, state := .selectionRequired })

theorem Fetched.after {c' log' entries} (h : Fetched c (entries ++ log) c' log')
    (hents : ∀ e ∈ entries, e.adds = true) : Fetched c log c' log' := by
  obtain ⟨more, rfl, hmore, hc'⟩ := h
  refine ⟨more ++ entries, (List.append_assoc _ _ _).symm, ?_, hc'⟩
  intro e he
  rcases List.mem_append.1 he with he | he
  · exact hmore e he
  · exact hents e he

theorem fetchMetadata_does (handle : Handle) (polls : Nat) (c : Controller) (log : List Entry) :
    Does exec (Controller.fetchMetadata U handle polls) (fun _ => Fetched c log) c log := by
  induction polls generalizing log with
  | zero => exact does_throw ⟨[], rfl, by simp, .inl rfl⟩
  | succ polls ih =>
    -- each failure ends the loop after the calls made so far
    refine does_call_cases (fun x fault => ?_) fun x => ?_
    · exact does_throw ⟨[_], rfl, by simp [Op.entry, Entry.adds], .inl rfl⟩
    refine does_call_cases (fun x fault => ?_) fun x => ?_
    · exact does_throw ⟨[_, _], rfl, by simp [Op.entry, Entry.adds], .inl rfl⟩
    simp only [Op.answer, Op.entry, Answer.result]
    split
    · exact does_throw ⟨[_, _], rfl, by simp [Entry.adds], .inl rfl⟩
    split
    · split
      · exact does_throw ⟨[_, _], rfl, by simp [Entry.adds], .inl rfl⟩
      rename_i metadata hmeta
      refine does_call_cases (fun x fault => ?_) fun x => ?_
      · exact does_throw ⟨[_, _, _], rfl, by simp [Op.entry, Entry.adds], .inl rfl⟩
      · exact does_modify_bind (does_pure
          ⟨[_, _, _], rfl, by simp [Op.entry, Entry.adds], .inr ⟨metadata, rfl⟩⟩)
    · refine does_call_cases (fun x fault => ?_) fun x => ?_
      · exact does_throw ⟨[_, _, _], rfl, by simp [Op.entry, Entry.adds], .inl rfl⟩
      · refine (ih _).post fun _ _ _ h => ?_
        exact @Fetched.after _ _ _ _ [.wait _, .metadata _, .pause _] h
          (by simp [Entry.adds])

theorem Turn.adding_one {e} (hclosed : c.closed = false) (hstate : c.state = .empty)
    (he : e.adds = true) : Turn U i c log c (e :: log) :=
  .adding hclosed hstate (List.forall_mem_singleton.2 he) .refused

theorem add_turn {polls : Nat} : TakesTurn U i (Controller.add U polls) := by
  intro c log
  refine does_get_bind ?_
  split
  · exact does_throw .quiet
  rename_i hadd
  simp only [not_or, Bool.not_eq_true, not_not] at hadd
  refine does_call_cases (fun x fault => ?_) fun x => ?_
  · exact does_throw (.adding_one hadd.1 hadd.2 rfl)
  simp only [Op.answer, Answer.result]
  split
  · exact does_throw (.adding_one hadd.1 hadd.2 rfl)
  rename_i hval
  refine does_modify_bind ((fetchMetadata_does _ _ _ _).post fun _ _ _ h => ?_)
  obtain ⟨entries, rfl, hents, hc'⟩ :=
    @Fetched.after _ _ _ _ [.addPaused _ _] h (by simp [Entry.adds])
  rcases hc' with rfl | ⟨metadata, rfl⟩
  · exact .adding hadd.1 hadd.2 hents (.fetching (not_not.1 hval))
  · exact .adding hadd.1 hadd.2 hents (.fetched (not_not.1 hval))

/-- The pause after a failure that `poll` has seen. -/
theorem poll_failed {status} (progress : Progress) (hclosed : c.closed = false)
    (hstate : c.state = .downloading) {f : PUnit → Action α} (hf : ∀ u, ∃ e, f u = throw e) :
    Does exec (Controller.pauseAfterFailure >>= f) (fun _ c' log' => Turn U i c log c' log')
      { c with progress := progress } (.status status :: log) := by
  refine does_bind (does_get_bind (does_call_bind fun x => does_modify ?_))
  obtain ⟨e, he⟩ := hf ⟨⟩
  rw [Then, he]
  exact does_throw (.failed progress hclosed hstate)

theorem poll_turn {lastProgress} {lastChange now : Int} :
    TakesTurn U i (Controller.poll lastProgress lastChange now) := by
  intro c log
  refine does_get_bind ?_
  split
  · exact does_throw .quiet
  rename_i hclosed
  split
  · exact does_throw .quiet
  split
  · exact does_throw .quiet
  rename_i hstate
  have hclosed : c.closed = false := Bool.not_eq_true _ ▸ hclosed
  have hstate : c.state = .downloading := not_not.1 hstate
  refine does_call_cases (fun x fault => ?_) fun x => ?_
  · refine poll_failed c.progress hclosed hstate fun _ => ?_
    split <;> exact ⟨_, rfl⟩
  · simp only [Op.answer, Answer.result]
    split
    · exact poll_failed c.progress hclosed hstate fun _ => ⟨_, rfl⟩
    refine does_modify_bind ?_
    split
    · exact poll_failed _ hclosed hstate fun _ => ⟨_, rfl⟩
    split
    · refine does_call_cases (fun x fault => ?_) fun x => ?_
      · exact does_throw (.completePauseFailed hclosed hstate)
      · exact does_modify_bind (does_get_bind (does_pure (.completed hclosed hstate)))
    · refine does_pure (.observed _ hclosed ?_ rfl)
      rw [hstate]
      nofun

/-! ### Sealing -/

/-- How the second part of a seal ends. -/
theorem sealQuarantine_does {Q : Except Error Manifest → Controller → List Entry → Prop}
    (hfailed : ∀ fault, Q (.error sealFailed) c (.syncAndUnmount (.error fault) :: log))
    (hok : Q (.ok c.manifest) { c with state := .sealed } (.syncAndUnmount (.ok ()) :: log)) :
    Does exec Controller.sealQuarantine Q c log := by
  refine does_call_cases (fun x fault => ?_) fun x => ?_
  · exact does_throw (hfailed fault)
  · exact does_modify_bind (does_get_bind (does_pure hok))

/-- What a seal returns: the manifest of the controller, which is then sealed and not closed. -/
def Sealing (U : Unicode) (i : Input) (c : Controller) (log : List Entry)
    (r : Except Error Manifest) (c' : Controller) (log' : List Entry) : Prop :=
  Turn U i c log c' log' ∧ ∀ manifest, r = .ok manifest →
    manifest = c'.manifest ∧ c'.state = .sealed ∧ c'.closed = false

theorem seal_does : ∀ c log, Does exec (Controller.seal U) (Sealing U i c log) c log := by
  intro c log
  refine does_get_bind ?_
  split
  · exact does_throw ⟨.quiet, nofun⟩
  rename_i hseal
  have hseal : c.maySeal = true := not_not.1 hseal
  refine does_modify_bind ?_
  split
  · rename_i hdown
    refine sealQuarantine_does ?_ ?_
    · exact fun fault => ⟨@Turn.resealed _ _ _ _ (.error fault) hseal hdown, nofun⟩
    · refine ⟨@Turn.resealed _ _ _ _ (.ok ()) hseal hdown, ?_⟩
      rintro _ ⟨⟩
      exact ⟨rfl, rfl, by simpa using (Bool.and_eq_true_iff.1 hseal).1⟩
  · rename_i hup
    have hup : c.clientDown = false := Bool.not_eq_true _ ▸ hup
    have hmay : c.closed = false ∧ c.state = .downloadComplete := by
      simpa [Controller.maySeal, hup] using hseal
    -- an error puts the state back to what it was
    have hback : ({ ({ c with state := .sealing }) with
        state := .downloadComplete } : Controller) = c := by
      rw [← hmay.2]
    refine does_bind (does_get_bind (does_call_cases (fun x fault => ?_) fun x => ?_))
    · refine does_modify_bind (does_throw ⟨?_, nofun⟩)
      rw [hback]
      exact .verifyFailed hmay.1 hmay.2 hup nofun
    simp only [Op.answer, Answer.result]
    split
    · rename_i hmatch
      refine does_modify_bind (does_throw ⟨?_, nofun⟩)
      rw [hback]
      refine .verifyFailed hmay.1 hmay.2 hup ?_
      rintro files manifest ⟨⟩
      rw [hmatch]
      nofun
    · rename_i hmatch
      refine does_call_cases (fun x fault => ?_) fun x => ?_
      · refine does_modify_bind (does_throw ⟨?_, nofun⟩)
        rw [hback]
        exact .shutdownFailed hmay.1 hmay.2 hup hmatch
      refine does_modify (sealQuarantine_does ?_ ?_)
      · exact fun fault =>
          ⟨@Turn.sealedClient _ _ _ _ _ _ (.error fault) hmay.1 hmay.2 hup hmatch, nofun⟩
      · refine ⟨@Turn.sealedClient _ _ _ _ _ _ (.ok ()) hmay.1 hmay.2 hup hmatch, ?_⟩
        rintro _ ⟨⟩
        exact ⟨rfl, rfl, hmay.1⟩

theorem seal_turn : TakesTurn U i (Controller.seal U) :=
  fun c log => (seal_does c log).post fun _ _ _ h => h.1

/-! ### Closing -/

/-- The pause of `close` and its result. -/
theorem closePause_does {Q : Except Error Bool → Controller → List Entry → Prop}
    (h : ∀ paused : Option (Except Fault Unit),
      paused.isSome = (c.handle.valid && c.state ≠ .sealed) →
      Q (.ok (paused.all Except.isOk)) c ((paused.map .pause).toList ++ log)) :
    Does exec (Controller.closePause c) Q c log := by
  unfold Controller.closePause
  split
  · rename_i hpause
    refine does_call_bind fun x => does_pure ?_
    exact h (some (x.result ())) (by simp [hpause])
  · rename_i hpause
    exact does_pure (h none (by simpa using hpause))

/-- The shutdown of `close` and its result. -/
theorem closeShutdown_does {Q : Except Error Bool → Controller → List Entry → Prop}
    (h : ∀ down, (down.map Prod.fst).isSome = (c.handle.valid && !c.clientDown) →
      (∀ r, down = some r → r.1 = .ok () → r.2 = true) →
      Q (.ok (down.all fun r => r.1.isOk))
        { c with clientDown := c.clientDown || (down.any fun r => r.1.isOk) || !c.handle.valid }
        ((down.map fun r => Entry.shutdown r.1 r.2).toList ++ log)) :
    Does exec (Controller.closeShutdown c) Q c log := by
  unfold Controller.closeShutdown
  split
  · rename_i hval
    refine does_modify_bind (does_pure ?_)
    have hnone := h none (by simp [hval]) nofun
    simpa [hval] using hnone
  · rename_i hval
    have hsame : ({ c with clientDown := c.clientDown || false || !c.handle.valid } :
        Controller) = c := by
      rw [Bool.or_false, not_not.1 hval, Bool.not_true, Bool.or_false]
    split
    · rename_i hdown
      have hnone := h none (by simp [hdown]) nofun
      exact does_pure (hsame ▸ hnone)
    rename_i hup
    refine does_call_cases (fun x fault => ?_) fun x => ?_
    · have hsome := h (some (.error fault, x.tookEffect))
        (by simp [not_not.1 hval, hup]) (by simp)
      exact does_pure (hsame ▸ hsome)
    · have hsome := h (some (.ok (), true)) (by simp [not_not.1 hval, hup]) (by simp)
      refine does_modify_bind (does_pure ?_)
      simpa [Op.entry, Answer.result, Except.toBool] using hsome

theorem close_turn : TakesTurn U i Controller.close := by
  intro c log
  refine does_get_bind ?_
  split
  · exact does_pure .quiet
  rename_i hclosed
  have hclosed : c.closed = false := Bool.not_eq_true _ ▸ hclosed
  refine does_bind (closePause_does fun paused hpaused => ?_)
  rw [Then]
  refine does_bind (closeShutdown_does fun down hdown heff => ?_)
  rw [Then, ← List.append_assoc]
  have hcalls : CloseCalls c paused (down.map Prod.fst) := ⟨hpaused, hdown⟩
  split
  · rename_i hok
    obtain ⟨hpaus, hdownOk⟩ := Bool.and_eq_true_iff.1 hok
    refine does_modify ?_
    -- after a close without errors the client is down, however it came to be so
    have hcli : (c.clientDown || (down.any fun r => r.1.isOk) || !c.handle.valid) = true := by
      cases down with
      | none =>
        cases hval : c.handle.valid <;> cases hup : c.clientDown <;>
          simp [hval, hup] at hdown ⊢
      | some => simpa using .inl (.inr hdownOk)
    rw [hcli]
    refine .closed hclosed hcalls ?_ ?_
    · rintro r rfl
      exact Checked.isOk_eq_true.1 hpaus
    · rintro ⟨r, effect⟩ rfl
      have hr := Checked.isOk_eq_true.1 hdownOk
      rw [Prod.mk.injEq]
      exact ⟨hr, heff _ rfl hr⟩
  · rename_i hfailed
    refine does_throw (.closeFailed hclosed hcalls ?_)
    rw [Bool.and_eq_true, not_and_or] at hfailed
    rcases hfailed with hfailed | hfailed
    · left
      match paused, hfailed with
      | none, hfailed | some (.ok ()), hfailed => exact absurd rfl hfailed
      | some (.error fault), _ => exact ⟨fault, rfl⟩
    · right
      match down, hfailed with
      | none, hfailed | some (.ok (), _), hfailed => exact absurd rfl hfailed
      | some (.error fault, effect), _ => exact ⟨fault, effect, rfl⟩

theorem destroyDownloader_turn : TakesTurn U .destroyForReceipt destroyDownloader := by
  intro c log
  rintro _ rfl
  refine ⟨trivial, fun x _ => ?_⟩
  rintro _ rfl
  exact ⟨trivial, .destroyed rfl⟩

end

/-! ## The step lemma -/

variable {U : Unicode} {α : Type} {i : Input} {m : Action α}

theorem World.perform_turn (hm : TakesTurn U i m) (w : World) (answers : Nat → Answer) :
    Turn U i w.controller w.log (w.perform answers m).2.controller (w.perform answers m).2.log :=
  (hm w.controller w.log).outcome answers

theorem World.perform_turn_of_eq {w w' : World} {answers : Nat → Answer} {r : Except Error α}
    (hm : TakesTurn U i m) (h : w.perform answers m = (r, w')) {c' : Controller} {log' : List Entry}
    (hc' : w'.controller = c') (hlog' : w'.log = log') : Turn U i w.controller w.log c' log' := by
  have hturn := perform_turn hm w answers
  rwa [h, hc', hlog'] at hturn

/-- **Every step is a turn.** -/
theorem World.step_turn (move : Move) (w : World) :
    Turn U move.input w.controller w.log (w.step U move).controller (w.step U move).log := by
  obtain ⟨i, answers⟩ := move
  cases i with
  | add => exact perform_turn add_turn w answers
  | currentMetadata => exact perform_turn takesTurn_look w answers
  | select => exact perform_turn select_turn w answers
  | start => exact perform_turn start_turn w answers
  | pause => exact perform_turn pause_turn w answers
  | currentStatus => exact perform_turn currentStatus_turn w answers
  | onVPNLoss => exact perform_turn onVPNLoss_turn w answers
  | sealQuarantine => exact perform_turn seal_turn w answers
  | close => exact perform_turn close_turn w answers
  | monitor =>
    simp only [World.step]
    split <;> rename_i heq <;> exact perform_turn_of_eq takesTurn_look heq rfl rfl
  | poll =>
    simp only [World.step]
    split
    · split <;> rename_i heq <;> exact perform_turn_of_eq poll_turn heq rfl rfl
    · exact .quiet
  | emitted =>
    simp only [World.step]
    split <;> exact .quiet
  | fail =>
    simp only [World.step]
    split
    · exact perform_turn pauseAfterFailure_turn w answers
    · exact .quiet
  | sealAndDestroy =>
    simp only [World.step, World.beginReceipt]
    split
    · split
      · exact .quiet
      · split <;> rename_i heq <;> exact perform_turn_of_eq takesTurn_look heq rfl rfl
    · exact .quiet
  | sealForReceipt =>
    simp only [World.step, World.sealForReceipt]
    split
    · split <;> rename_i heq <;> exact perform_turn_of_eq seal_turn heq rfl rfl
    · exact .quiet
  | destroyForReceipt =>
    simp only [World.step, World.destroyForReceipt]
    split
    · split <;> rename_i heq <;> exact perform_turn_of_eq destroyDownloader_turn heq rfl rfl
    · exact .quiet
  | destroyReceipt => exact .quiet

end PrivateVm.Torrent
