import PrivateVm.Scanner.VmOwnership

set_option autoImplicit false

/-! # A scanner VM that could not be started

`StartScanner` returns either no resource, and then nothing is held, or a resource that owns
everything held (`startScanner_owned`). There is one exception: a process of the offline VM that
could not be launched leaves a nil pointer in the resource, and the `Stop` that follows
dereferences it.
-/

namespace PrivateVm.Scanner

open Checked Program Program.Method

/-- The calls of a boot until the launcher fails. -/
def launcherFails : (o : Op) → Answer → Held → Bool
  | .launch, x, _ => x .launch != .started && x .launch != .unavailable
  | .check c, x, _ => x (.check c) = none
  | .obtain t, x, _ => x (.obtain t) = none
  | _, _, _ => true

section

variable {r : Resource} {h : Held} {v : Bool} {mode : ScannerMode}

/-- A resource that is being collected, before it has a process. -/
structure Starting (r : Resource) (h : Held) : Prop where
  networked : r.networked = false
  gone : ∀ t, r.gone t = false
  none : r.process = .none
  process : h .process = false
  guest : h .guest = false
  connection : h .connection = false
  own : ∀ t ∈ ownThings, h t = true → r.has t = true

theorem Starting.owns (hs : Starting r h) : Owns r h := by
  have hkept : ∀ t ∈ keptThings, t ∈ ownThings := by decide
  have hrest : ∀ t ∈ [.connection, .network], t ∈ ownThings := by decide
  refine ⟨fun t ht hh => ⟨hs.own t (hkept t ht) hh, hs.gone t⟩, fun _ => ⟨?_, hs.guest, ?_⟩,
    fun hn => ?_, by simp [hs.none]⟩
  · exact fun hp => absurd hp (by simp [hs.process])
  · exact fun t ht hh => ⟨hs.own t (hrest t ht) hh, hs.gone t⟩
  · simp [hs.networked] at hn

variable {t : Thing} {problem : Fault → Problem}

theorem Starting.acquire (hs : Starting r h) (ht : t ∈ ownThings) (hne : t ≠ .connection) :
    Starting (r.setHas t true) (h.set t true) := by
  have hout : ∀ t ∈ ownThings, t ≠ .process ∧ t ≠ .guest := by decide
  refine ⟨hs.networked, hs.gone, hs.none, ?_, ?_, ?_, fun t' ht' hh => ?_⟩
  · rw [Held.set_of_ne _ _ (hout t ht).1.symm, hs.process]
  · rw [Held.set_of_ne _ _ (hout t ht).2.symm, hs.guest]
  · rw [Held.set_of_ne _ _ hne.symm, hs.connection]
  · by_cases heq : t' = t
    · simp [Resource.setHas, heq]
    · rw [Held.set_of_ne _ _ heq] at hh
      simpa [Resource.setHas, heq] using hs.own t' ht' hh

/-- A launch that failed has left a nil pointer. -/
structure Crashing (r : Resource) (h : Held) : Prop where
  networked : r.networked = false
  gone : r.gone .process = false
  pointer : r.process = .nilPointer
  process : h .process = false
  cid : h .cid = true

/-- What is held is owned, and no launch of an offline VM has failed. -/
def Kept (mode : ScannerMode) (r : Resource) (h : Held × Bool) : Prop :=
  Owns r h.1 ∧ (mode = .scan → h.2 = false)

/-- The ends of a start. The mark is that its calls were those until the launcher fails. -/
def Collected (mode : ScannerMode) : Except Failure Unit → Resource → Held × Bool → Prop
  | .ok (), r, h => Kept mode r h
  | .error (.errors _), r, h => Kept mode r h ∨ mode = .scan ∧ Crashing r h.1 ∧ h.2 = true
  | .error .nilDereference, _, _ => False

def Collects (mode : ScannerMode) (m : Vm Unit) (r : Resource) (h : Held) (v : Bool) : Prop :=
  Does (marking exec launcherFails) m (Collected mode) r (h, v)

theorem Kept.unmarked (hk : Kept mode r (h, v)) (v' : Bool) (hv : v' = true → v = true) :
    Kept mode r (h, v') :=
  ⟨hk.1, fun hm => Bool.eq_false_iff.2 fun h' => by cases (hv h').symm.trans (hk.2 hm)⟩

theorem collects_perform (hk : Kept mode r (h, v)) (c : Check) (problem : Fault → Problem) :
    Collects mode (perform c problem) r h v :=
  does_unmarked (does_perform hk.unmarked fun _ v' hv => .inl (hk.unmarked v' hv))

variable {f : Unit → Vm Unit} {h' : Held}

theorem collects_perform_bind {c} (ho : Owns r h) (hf : Collects mode (f ()) r h v) :
    Collects mode (perform c problem >>= f) r h v := by
  refine does_bind (does_invoke_bind fun x => ?_)
  have hx : marking exec launcherFails (.check c) x (h, v) =
      (x (.check c), h, v && decide (x (.check c) = none)) := rfl
  rw [hx]
  cases x (.check c) with
  | none =>
    rw [decide_eq_true rfl, Bool.and_true]
    exact does_pure hf
  | some => exact does_throw (.inl ⟨ho, fun _ => Bool.and_false v⟩)

theorem collects_acquire_bind {record : Resource → Resource} (ho : Owns r h)
    (hf : Collects mode (f ()) (record r) (h.set t true) v) :
    Collects mode (acquire t problem record >>= f) r h v := by
  refine does_bind (does_invoke_bind fun x => ?_)
  have hx : marking exec launcherFails (.obtain t) x (h, v) = (x (.obtain t),
      h.after (.obtain t) (x (.obtain t)), v && decide (x (.obtain t) = none)) := rfl
  rw [hx]
  cases x (.obtain t) with
  | none =>
    rw [decide_eq_true rfl, Bool.and_true]
    exact does_modify hf
  | some => exact does_throw (.inl ⟨ho, fun _ => Bool.and_false v⟩)

theorem collects_failIf_bind {p : Prop} [Decidable p] {es}
    (hfail : p → Collected mode (.error (.errors es)) r (h, v))
    (hf : ¬ p → Collects mode (f ()) r h v) :
    Collects mode (check (failIf p (.errors es)) >>= f) r h v := by
  by_cases hp : p
  · rw [failIf, if_pos hp]
    exact does_bind (does_check (hfail hp))
  · rw [failIf, if_neg hp]
    exact does_bind (does_check (hf hp))

/-- A runtime that is there owns the network. -/
theorem Starting.owns_networked (hs : Starting r h) {n} (hown : RuntimeOwns n h')
    (hfrm : Frame runtimeThings h h') :
    Owns { ({ r with runtime := n }).setHas .network false with
      networked := true, capability := false } h' := by
  have hkept : ∀ t ∈ keptThings, t ∈ ownThings ∧ t ∉ runtimeThings ∧ t ≠ .network := by decide
  refine ⟨fun t ht hh => ⟨?_, hs.gone t⟩, fun hn => ?_, fun _ => ⟨?_, fun _ => hown, fun hg => ?_⟩,
    by simp [Resource.setHas, hs.none]⟩
  · obtain ⟨hmem, hout, hne⟩ := hkept t ht
    rw [hfrm t hout] at hh
    simpa [Resource.setHas, hne] using hs.own t hmem hh
  · cases hn
  · rw [hfrm .connection (by decide)]
    exact hs.connection
  · have hg : r.gone .process = true := hg
    simp [hs.gone] at hg

theorem Starting.frame (hs : Starting r h) {n} (hproc : h' .process = false)
    (hguest : h' .guest = false) (hfrm : Frame [.process, .guest, .network] h h')
    (hnet : r.has .network = true) : Starting { r with runtime := n } h' := by
  refine ⟨hs.networked, hs.gone, hs.none, hproc, hguest, ?_, fun t ht hh => ?_⟩
  · rw [hfrm .connection (by decide)]
    exact hs.connection
  by_cases hn : t = .network
  · rwa [hn]
  · have hout : ∀ t ∈ ownThings, t ≠ .network → t ∉ [.process, .guest, .network] := by decide
    rw [hfrm t (hout t ht hn)] at hh
    exact hs.own t ht hh

theorem collects_startUpdate (hs : Starting r h) (hnet : r.has .network = true) :
    Collects .update startUpdate r h v := by
  have hkept : ∀ {r h v}, Owns r h → Kept .update r (h, v) := fun ho => ⟨ho, fun h => by cases h⟩
  refine does_bind (does_unmarked (does_startNetworked hs.process hs.guest ?_ ?_))
  · intro n es h' hown hfrm v' _
    have hk := hkept (v := v') (hs.owns_networked hown hfrm)
    refine does_modify_bind (collects_failIf_bind (fun _ => .inl hk) fun _ => ?_)
    exact collects_perform hk _ _
  · intro n es h' hp hg hfrm v' _
    have ho := (hs.frame (n := n) hp hg hfrm hnet).owns
    exact collects_failIf_bind (fun _ => .inl (hkept ho)) (absurd (.inr rfl))

/-- A process that runs, before and after there is a connection to it. -/
theorem Starting.owns_running (hs : Starting r h) {has : Thing → Bool}
    (hhas : ∀ t, r.has t = true → has t = true)
    (hconn : h' .connection = true → has .connection = true)
    (hfrm : Frame [.process, .connection] h h') :
    Owns { r with process := .process, has := has } h' := by
  have hout : ∀ t ∈ ownThings, t ≠ .connection → t ∉ [.process, .connection] := by decide
  have hown : ∀ t ∈ ownThings, h' t = true → has t = true := by
    intro t ht hh
    by_cases hc : t = .connection
    · rw [hc] at hh ⊢
      exact hconn hh
    · rw [hfrm t (hout t ht hc)] at hh
      exact hhas t (hs.own t ht hh)
  have hkept : ∀ t ∈ keptThings, t ∈ ownThings := by decide
  have hrest : ∀ t ∈ [.connection, .network], t ∈ ownThings := by decide
  refine ⟨fun t ht hh => ⟨hown t (hkept t ht) hh, hs.gone t⟩, fun _ => ⟨?_, ?_, ?_⟩, fun hn => ?_,
    by simp⟩
  · exact fun _ => ⟨rfl, hs.gone _⟩
  · rw [hfrm .guest (by decide)]
    exact hs.guest
  · exact fun t ht hh => ⟨hown t (hrest t ht) hh, hs.gone t⟩
  · simp [hs.networked] at hn

theorem collects_startOffline (hs : Starting r h) (hcid : h .cid = true) :
    Collects .scan startOffline r h true := by
  refine collects_perform_bind hs.owns (does_invoke_bind fun x => does_modify_bind ?_)
  have hx : marking exec launcherFails .launch x (h, true) = (x .launch,
      h.after .launch (x .launch), x .launch != .started && x .launch != .unavailable) := rfl
  rw [hx]
  cases x .launch with
  | started =>
    have hfrm : Frame [.process, .connection] h (h.set .process true) :=
      .set h true (by decide)
    have hfrm' : Frame [.process, .connection] h ((h.set .process true).set .connection true) :=
      hfrm.trans (.set _ true (by decide))
    have hconn : ¬ h.set .process true .connection = true := by
      simp [Held.set, hs.connection]
    have ho := hs.owns_running (fun _ => id) (fun hc => absurd hc hconn) hfrm
    have ho' : Owns (.setHas { r with process := .process } .connection true) _ :=
      hs.owns_running (fun t ht => by simp [ht]) (fun _ => rfl) hfrm'
    refine collects_failIf_bind (fun _ => .inl ⟨ho, fun _ => rfl⟩) fun _ => ?_
    refine collects_acquire_bind ho (collects_perform_bind ho' ?_)
    exact collects_perform ⟨ho', fun _ => rfl⟩ _ _
  | unavailable =>
    refine collects_failIf_bind (fun _ => .inl ⟨?_, fun _ => rfl⟩) fun hok => absurd (by simp) hok
    exact (show Starting { r with process := .none } h from { hs with none := rfl }).owns
  | failed =>
    refine collects_failIf_bind (fun _ => .inr ⟨rfl, ?_, rfl⟩) fun hok => absurd (by simp) hok
    exact ⟨hs.networked, hs.gone _, rfl, hs.process, hcid⟩

theorem collects_startWithCid (mode : ScannerMode) (hs : Starting r h) (hcid : h .cid = true) :
    Collects mode (startWithCid mode) r h true := by
  refine collects_perform_bind hs.owns (does_modify_bind ?_)
  have hs : Starting { r with capability := true } h := { hs with }
  cases mode with
  | update =>
    refine collects_acquire_bind hs.owns ?_
    have hs := hs.acquire (t := .network) (by decide) (by decide)
    refine collects_acquire_bind hs.owns ?_
    have hs := hs.acquire (t := .directories) (by decide) (by decide)
    refine collects_acquire_bind hs.owns ?_
    have hs := hs.acquire (t := .images) (by decide) (by decide)
    exact collects_perform_bind hs.owns (collects_startUpdate hs rfl)
  | scan =>
    refine collects_acquire_bind hs.owns ?_
    have hs := hs.acquire (t := .directories) (by decide) (by decide)
    refine collects_acquire_bind hs.owns ?_
    have hs := hs.acquire (t := .images) (by decide) (by decide)
    exact collects_perform_bind hs.owns (collects_startOffline hs hcid)

/-- What `StartScanner` leaves. -/
def Started : Except Failure (Bool × Errors) → Resource → Held → Prop
  | .ok (true, _), r, h => Owns r h
  | .ok (false, _), _, h => h = Held.nothing
  | .error (.errors _), _, _ => False
  | .error .nilDereference, _, h => h .process = false

theorem does_resolution_bind {β : Type} {f : Option Fault → Vm β}
    {Q : Except Failure β → Resource → Held × Bool → Prop}
    (hsome : mode ≠ .scan → ∀ e v, Does (marking exec launcherFails) (f (some e)) Q r (h, v))
    (hnone : Does (marking exec launcherFails) (f none) Q r (h, true)) :
    Does (marking exec launcherFails) (resolution mode >>= f) Q r (h, true) := by
  cases mode with
  | update =>
    refine does_bind (does_invoke fun x => ?_)
    have hx : marking exec launcherFails (.check .resolution) x (h, true) =
        (x (.check .resolution), h, decide (x (.check .resolution) = none)) := rfl
    rw [hx]
    cases x (.check .resolution) with
    | none => exact hnone
    | some e => exact hsome (by decide) e _
  | scan => exact does_bind (does_pure hnone)

/-- What a start leaves, and when it panics. -/
structure Ends (mode : ScannerMode) (res : Except Failure (Bool × Errors)) (r : Resource)
    (h : Held × Bool) : Prop where
  started : Started res r h.1
  fails : mode = .scan → (h.2 = true ↔ res = .error .nilDereference)
  panics : res = .error .nilDereference → mode = .scan ∧ h.1 .cid = true

theorem ends_ok {a : Bool × Errors} (hstd : Started (.ok a) r h) (hv : mode = .scan → v = false) :
    Ends mode (.ok a) r (h, v) := by
  have hno : ¬ Except.ok a = .error Failure.nilDereference := fun h' => by cases h'
  exact ⟨hstd, fun hm => iff_of_false (by simp [hv hm]) hno, fun h' => absurd h' hno⟩

/-- **StartScanner returns no resource only if nothing is held**, and otherwise one that owns
everything held. It panics just if the launcher of the offline VM fails. -/
theorem startScanner_owned (mode : ScannerMode) :
    Does (marking exec launcherFails) (startScanner mode) (Ends mode) {} (.nothing, true) := by
  refine does_resolution_bind (fun hm _ _ => does_pure (ends_ok rfl (absurd · hm)))
    (does_invoke_bind fun x => ?_)
  have hx : marking exec launcherFails (.obtain .cid) x (.nothing, true) = (x (.obtain .cid),
      Held.nothing.after (.obtain .cid) (x (.obtain .cid)), decide (x (.obtain .cid) = none)) := rfl
  rw [hx]
  cases x (.obtain .cid) with
  | some => exact does_pure (ends_ok rfl fun _ => rfl)
  | none =>
    refine does_modify_bind (does_settle_bind ?_)
    have hfr : Starting {} .nothing :=
      ⟨rfl, fun _ => rfl, rfl, rfl, rfl, rfl, fun _ _ hh => by cases hh⟩
    have hs := hfr.acquire (t := .cid) (by decide) (by decide)
    refine .post (collects_startWithCid mode hs rfl) fun res r h hres => ?_
    cases res with
    | ok => exact does_pure (ends_ok hres.1 hres.2)
    | error e =>
      cases e with
      | nilDereference => exact hres.elim
      | errors =>
        -- `Stop` meets what is owned, or the nil pointer of a launch that failed
        rcases hres with hk | ⟨hscan, hc, hfails⟩
        · refine does_settle_bind (does_unmarked (does_stop hk.1 ?_ ?_))
          · exact fun r' v hv => does_pure (ends_ok rfl (hk.unmarked v hv).2)
          · exact fun es r' h' ho' _ v hv => does_pure (ends_ok ho' (hk.unmarked v hv).2)
        · refine does_settle_bind (does_stop_nilPointer hc.networked hc.gone hc.pointer ?_)
          exact does_throw ⟨hc.process, fun _ => ⟨fun _ => rfl, fun _ => hfails⟩,
            fun _ => ⟨hscan, hc.cid⟩⟩

end

/-! ## The launcher fails -/

/-- `StartScanner` in scan mode. -/
def bootOffline (xs : Nat → Answer) : (Except Failure (Bool × Errors) × Resource) × Held :=
  (startScanner .scan).outcome exec xs {} Held.nothing

/-- An error is returned, and what is held belongs to the resource returned with it. -/
def Reported (run : (Except Failure (Bool × Errors) × Resource) × Held) : Prop :=
  ∃ returned es, run.1.1 = .ok (returned, es) ∧ es ≠ [] ∧ Started run.1.1 run.1.2 run.2 ∧
    (returned = false → run.1.2.capabilityGone = true)

/-- **No failure of the launcher is reported**: whenever it fails, an operation is invoked on the
missing process. -/
theorem launch_failure_never_reported {xs : Nat → Answer}
    (h : (startScanner .scan).along exec launcherFails xs {} Held.nothing = true) :
    ¬ Reported (bootOffline xs) := by
  rintro ⟨returned, es, hok, -⟩
  rw [bootOffline, (((startScanner_owned .scan).along xs).fails rfl).1 h] at hok
  cases hok

def failingLauncher : Answer
  | .launch => .failed ⟨"QEMU"⟩
  | .wait => true
  | .check _ | .obtain _ | .giveBack _ => none

theorem launch_failure_never_reported_sample :
    (startScanner .scan).along exec launcherFails (fun _ => failingLauncher) {} Held.nothing =
      true ∧ ¬ Reported (bootOffline fun _ => failingLauncher) :=
  ⟨by decide +kernel, launch_failure_never_reported (by decide +kernel)⟩

/-- The daemon ends, with the CID, the directories and the image lease still held. -/
theorem failing_launcher_ends_daemon :
    (bootOffline fun _ => failingLauncher).1.1 = .error .nilDereference ∧
      [Thing.cid, .directories, .images].all (bootOffline fun _ => failingLauncher).2 = true ∧
      ¬ Reported (bootOffline fun _ => failingLauncher) := by
  have hrun : (bootOffline fun _ => failingLauncher).1.1 = .error .nilDereference := by
    decide +kernel
  refine ⟨hrun, by decide +kernel, ?_⟩
  rintro ⟨returned, es, hok, -⟩
  cases hok

end PrivateVm.Scanner
