import PrivateVm.Network.Allocation
import PrivateVm.Network.Manager

set_option autoImplicit false

/-! # Allocations that do not collide

A step leaves the registry of a world alone, registers a state, or releases one
(`Advances`). A release deletes the entries of the slot and the name whenever they are the
session's, and they can be those of a newer state of the same session, which then goes on without
them (`allocations_collide`). In every run in which no state is released while a newer one of its
session has its slot or name, no two sessions share a slot or a name (`allocations_separate`).
-/

namespace PrivateVm.Network

open Netip Function List

/-! ## The registry -/

structure Registry where
  states : String → Option Nat
  reservations : UInt16 → Option String
  names : String → Option String
  owners : List (String × TopologySpec)

def NetworkState.owner (s : NetworkState) : String × TopologySpec := (s.sessionID, s.spec)

def World.registry (w : World) : Registry :=
  ⟨w.states, w.reservations, w.names, w.networks.map NetworkState.owner⟩

namespace Registry

def register (r : Registry) (sessionID : String) (spec : TopologySpec) : Registry where
  states := Function.update r.states sessionID (some r.owners.length)
  reservations := Function.update r.reservations spec.slot (some sessionID)
  names := Function.update r.names spec.namespace (some sessionID)
  owners := r.owners ++ [(sessionID, spec)]

def release (r : Registry) (n : Nat) (sessionID : String) (spec : TopologySpec) : Registry where
  states := deleteIf r.states sessionID n
  reservations := deleteIf r.reservations spec.slot sessionID
  names := deleteIf r.names spec.namespace sessionID
  owners := r.owners

/-- The state of a session that is registered, by its topology. -/
def Live (r : Registry) (sessionID : String) (spec : TopologySpec) : Prop :=
  ∃ n, r.states sessionID = some n ∧ r.owners[n]? = some (sessionID, spec)

/-- A table holds for every live state the entry under its slot, or its name, and no other. -/
def Entries {κ : Type} (r : Registry) (table : κ → Option String) (field : TopologySpec → κ) :
    Prop :=
  ∀ k sessionID, table k = some sessionID ↔ ∃ spec, r.Live sessionID spec ∧ field spec = k

/-- **The tables hold the entries of the live states**, and no others. -/
structure Exact (r : Registry) : Prop where
  live : ∀ sessionID n, r.states sessionID = some n →
    ∃ spec, r.owners[n]? = some (sessionID, spec)
  reservations : r.Entries r.reservations (·.slot)
  names : r.Entries r.names (·.namespace)

variable {r : Registry} {sessionID : String} {spec : TopologySpec} {sessionID' : String}
  {spec' : TopologySpec} {κ : Type} {table : κ → Option String} {field : TopologySpec → κ}

theorem live_register (hexact : r.Exact) : (r.register sessionID spec).Live sessionID' spec' ↔
      if sessionID' = sessionID then spec' = spec else r.Live sessionID' spec' := by
  split_ifs with hsame
  · rw [hsame]
    constructor
    · rintro ⟨n, hn, howner⟩
      simp only [register, update_self, Option.some.injEq] at hn
      rw [← hn] at howner
      simp only [register, List.getElem?_concat_length, Option.some.injEq, Prod.mk.injEq] at howner
      exact howner.2.symm
    · rintro rfl
      exact ⟨r.owners.length, by simp [register], by simp [register]⟩
  · constructor
    · rintro ⟨n, hn, howner⟩
      simp only [register, update_of_ne hsame] at hn
      obtain ⟨spec'', hspec⟩ := hexact.live _ n hn
      have hlt := (List.getElem?_eq_some_iff.1 hspec).1
      simp only [register, List.getElem?_append_left hlt] at howner
      exact ⟨n, hn, howner⟩
    · rintro ⟨n, hn, howner⟩
      have hlt := (List.getElem?_eq_some_iff.1 howner).1
      refine ⟨n, ?_, ?_⟩
      · simp only [register, update_of_ne hsame, hn]
      · simp only [register, List.getElem?_append_left hlt, howner]

theorem Entries.session_eq (h : r.Entries table field) (hlive : r.Live sessionID spec)
    (hlive' : r.Live sessionID' spec') (hsame : field spec = field spec') :
    sessionID = sessionID' := by
  have hid := (h _ _).2 ⟨_, hlive, rfl⟩
  have hid' := (h _ _).2 ⟨_, hlive', hsame.symm⟩
  exact Option.some.inj (hid.symm.trans hid')

theorem Entries.register [DecidableEq κ] (hexact : r.Exact) (h : r.Entries table field)
    (hsts : r.states sessionID = none) (hfree : table (field spec) = none) :
    (r.register sessionID spec).Entries
      (Function.update table (field spec) (some sessionID)) field := by
  have hdead : ∀ spec', ¬ r.Live sessionID spec' := by
    rintro spec' ⟨n, hn, -⟩
    simp [hsts] at hn
  intro k id
  simp only [live_register hexact]
  by_cases hk : k = field spec
  · subst hk
    rw [update_self, Option.some.injEq]
    constructor
    · rintro rfl
      exact ⟨spec, by simp⟩
    rintro ⟨spec', hlive, hsame⟩
    by_contra hne
    -- another session has the entry already
    rw [if_neg (Ne.symm hne)] at hlive
    rw [(h _ _).2 ⟨spec', hlive, hsame⟩] at hfree
    cases hfree
  · rw [update_of_ne hk, h]
    constructor
    · rintro ⟨spec', hlive, hsame⟩
      have hne : id ≠ sessionID := fun heq => hdead spec' (heq ▸ hlive)
      exact ⟨spec', by rwa [if_neg hne], hsame⟩
    rintro ⟨spec', hlive, hsame⟩
    split_ifs at hlive
    · exact absurd (hlive ▸ hsame).symm hk
    · exact ⟨spec', hlive, hsame⟩

/-- **One registration.** -/
theorem Exact.register (h : r.Exact) (hsts : r.states sessionID = none)
    (hslot : r.reservations spec.slot = none) (hname : r.names spec.namespace = none) :
    (r.register sessionID spec).Exact := by
  refine ⟨fun id n hn => ?_, h.reservations.register h hsts hslot, h.names.register h hsts hname⟩
  by_cases hsame : id = sessionID
  · simp only [Registry.register, hsame, update_self, Option.some.injEq] at hn
    exact ⟨spec, by simp [Registry.register, ← hn, hsame]⟩
  · simp only [Registry.register, update_of_ne hsame] at hn
    obtain ⟨spec', hspec⟩ := h.live id n hn
    have hlt := (List.getElem?_eq_some_iff.1 hspec).1
    exact ⟨spec', by simp only [Registry.register, List.getElem?_append_left hlt, hspec]⟩

theorem deleteIf_eq_some {α β : Type} [DecidableEq α] [DecidableEq β] {table : α → Option β}
    {key k : α} {value v : β} :
    deleteIf table key value k = some v ↔ table k = some v ∧ ¬ (k = key ∧ v = value) := by
  unfold deleteIf
  split
  · rename_i hvalue
    by_cases hk : k = key
    · subst hk
      simp [hvalue, eq_comm]
    · simp [hk]
  · rename_i hvalue
    constructor
    · refine fun hv => ⟨hv, ?_⟩
      rintro ⟨rfl, rfl⟩
      exact hvalue hv
    · exact fun hv => hv.1

variable {n : Nat}

theorem live_release : (r.release n sessionID spec).Live sessionID' spec' ↔
    r.Live sessionID' spec' ∧ ¬ (sessionID' = sessionID ∧ r.states sessionID = some n) := by
  constructor
  · rintro ⟨n', hdel, howner'⟩
    obtain ⟨hn', hkept⟩ := deleteIf_eq_some.1 hdel
    refine ⟨⟨n', hn', howner'⟩, ?_⟩
    rintro ⟨rfl, hn⟩
    exact hkept ⟨rfl, Option.some.inj (hn'.symm.trans hn)⟩
  · rintro ⟨⟨n', hn', howner'⟩, hkept⟩
    refine ⟨n', deleteIf_eq_some.2 ⟨hn', ?_⟩, howner'⟩
    rintro ⟨rfl, rfl⟩
    exact hkept ⟨rfl, hn'⟩

theorem Entries.release [DecidableEq κ] (h : r.Entries table field)
    (howner : r.owners[n]? = some (sessionID, spec))
    (hown : ∀ n' spec', r.states sessionID = some n' → r.owners[n']? = some (sessionID, spec') →
      field spec' = field spec → n' = n) :
    (r.release n sessionID spec).Entries (deleteIf table (field spec) sessionID) field := by
  intro k id
  rw [deleteIf_eq_some, h]
  simp only [live_release]
  constructor
  · rintro ⟨⟨spec', hlive, hsame⟩, hkept⟩
    refine ⟨spec', ⟨hlive, ?_⟩, hsame⟩
    rintro ⟨rfl, hn⟩
    -- the live state of the session is the one that is released
    obtain ⟨n', hn', howner'⟩ := hlive
    rw [Option.some.inj (hn'.symm.trans hn), howner] at howner'
    cases howner'
    exact hkept ⟨hsame.symm, rfl⟩
  · rintro ⟨spec', ⟨hlive, hkept⟩, hsame⟩
    refine ⟨⟨spec', hlive, hsame⟩, ?_⟩
    rintro ⟨hk, rfl⟩
    -- a live state with this entry would be the one that is released
    obtain ⟨n', hn', howner'⟩ := hlive
    exact hkept ⟨rfl, hown n' spec' hn' howner' (hsame.trans hk) ▸ hn'⟩

/-- **One release**, of a state with whose slot or name the session has no other one. -/
theorem Exact.release (h : r.Exact) (howner : r.owners[n]? = some (sessionID, spec))
    (hown : ∀ n' spec', r.states sessionID = some n' → r.owners[n']? = some (sessionID, spec') →
      spec'.slot = spec.slot ∨ spec'.namespace = spec.namespace → n' = n) :
    (r.release n sessionID spec).Exact where
  live id n' hn' := h.live id n' (deleteIf_eq_some.1 hn').1
  reservations := h.reservations.release howner fun n' spec' hn' howner' hsame =>
    hown n' spec' hn' howner' (.inl hsame)
  names := h.names.release howner fun n' spec' hn' howner' hsame =>
    hown n' spec' hn' howner' (.inr hsame)

end Registry

/-! ## The steps of a thread -/

/-- What is known at a point: the session has a valid identifier, and a state is released after
its resources have been reported absent. -/
def Point.Fine (reports : List Report) (t : Nat) : Point → Prop
  | .usePlan request | .allocate request _ | .reserve request _ _ | .available request _ _
  | .register request _ _ => Session.validateID request.sessionID = .ok ()
  | .release n _ => reports.find? (·.thread = t) = some ⟨t, n, true⟩
  | _ => True

section

variable {sha256 : Hash} {w : World} {t : Nat} {x : Answer} {point : Point}

theorem registry_modify (w : World) (n : Nat) {f : NetworkState → NetworkState}
    (hf : ∀ s, (f s).owner = s.owner) : (w.modify n f).registry = w.registry := by
  have hmap : (w.networks.modify n f).map NetworkState.owner =
      w.networks.map NetworkState.owner := by
    apply ext_getElem?
    intro i
    rw [List.getElem?_map, List.getElem?_map, List.getElem?_modify]
    cases w.networks[i]? with
    | none => rfl
    | some => by_cases hi : n = i <;> simp [hi, hf]
  simp only [World.registry, World.modify, hmap]

/-- What a step of a thread can do: it goes on with the same registry, perhaps after a report, or
it registers a state or releases one. -/
inductive Advances (sha256 : Hash) (w : World) (t : Nat) : Point → World → Prop
  | stuck {point : Point} : Advances sha256 w t point w
  | goto {point next : Point} {w' : World} (reports : List Report)
      (hthread : ∀ r ∈ reports, r.thread = t) (hregistry : w'.registry = w.registry)
      (hthreads : w'.threads = w.threads) (hreports : w'.reports = reports ++ w.reports)
      (hnext : point.Fine w.reports t → next.Fine w'.reports t) :
      Advances sha256 w t point (w'.goto t next)
  | register {request : CreateRequest} {policy : EndpointPolicy} {attempt : Nat} {s : NetworkState}
      {next : Point} (hstates : w.states request.sessionID = none)
      (hslot : (w.reservations
        (candidateFor sha256 request.sessionID (UInt8.ofNat attempt)).slot).getD "" = "")
      (hname : (w.names
        (candidateFor sha256 request.sessionID (UInt8.ofNat attempt)).namespace).getD "" = "")
      (hregistry : (w.register s).registry = w.registry.register request.sessionID
        (candidateFor sha256 request.sessionID (UInt8.ofNat attempt)))
      (hnext : next.Fine w.reports t) :
      Advances sha256 w t (.register request policy attempt) ((w.register s).goto t next)
  | release {n : Nat} {outcome : Option Failure} {s : NetworkState} (hs : w.networks[n]? = some s) :
      Advances sha256 w t (.release n outcome) ((w.release n s).goto t (.unlock n outcome))

theorem registry_goto (w : World) (t : Nat) (next : Point) :
    (w.goto t next).registry = w.registry := rfl

theorem Advances.quiet {next : Point} {w' : World} (hregistry : w'.registry = w.registry)
    (hthreads : w'.threads = w.threads) (hrep : w'.reports = w.reports)
    (hnext : point.Fine w.reports t → next.Fine w'.reports t) :
    Advances sha256 w t point (w'.goto t next) :=
  .goto [] (forall_mem_nil _) hregistry hthreads hrep hnext

theorem advance_advances (sha256 : Hash) (t : Nat) (x : Answer) (w : World) (point : Point) :
    Advances sha256 w t point (w.advance sha256 t x point) := by
  cases point with
  | create =>
    simp only [World.advance]
    split
    · exact .quiet rfl rfl rfl fun _ => trivial
    · exact .quiet rfl rfl rfl fun _ => trivial
    · rename_i hval _
      exact .quiet rfl rfl rfl fun _ => hval
  | usePlan =>
    simp only [World.advance]
    split
    · exact .quiet rfl rfl rfl fun _ => trivial
    · split
      · exact .quiet rfl rfl rfl fun _ => trivial
      · exact .quiet rfl rfl rfl fun h => h
  | allocate =>
    simp only [World.advance]
    split
    · exact .stuck
    · exact .quiet rfl rfl rfl fun h => h
  | reserve =>
    simp only [World.advance]
    split
    · exact .quiet rfl rfl rfl fun _ => trivial
    · split
      · exact .quiet rfl rfl rfl fun _ => trivial
      · split <;> exact .quiet rfl rfl rfl fun h => h
  | available =>
    simp only [World.advance]
    split
    · exact .quiet rfl rfl rfl fun _ => trivial
    · split <;> exact .quiet rfl rfl rfl fun h => h
  | register =>
    simp only [World.advance]
    split
    · exact .quiet rfl rfl rfl fun h => h
    · rename_i hfree
      simp only [not_or, not_not] at hfree
      refine .register hfree.1 hfree.2.1 hfree.2.2 ?_ trivial
      simp [World.registry, World.register, Registry.register, NetworkState.owner]
  | provision n steps =>
    cases steps with
    | nil =>
      simp only [World.advance]
      split <;> exact .quiet (registry_modify w n fun s => rfl) rfl rfl fun _ => trivial
    | cons step =>
      simp only [World.advance]
      split <;>
        · refine .quiet (registry_modify w n fun s => ?_) rfl rfl fun _ => trivial
          cases step <;> rfl
  | cleanup =>
    simp only [World.advance]
    split <;> exact .quiet rfl rfl rfl fun _ => trivial
  | lock n =>
    simp only [World.advance]
    split
    · exact .stuck
    · split
      · exact .stuck
      · exact .quiet (registry_modify w n fun s => rfl) rfl rfl fun _ => trivial
  | clean n outcome steps => cases steps <;> exact .quiet rfl rfl rfl fun _ => trivial
  | audit n =>
    have hthread : ∀ absent, ∀ r ∈ [(⟨t, n, absent⟩ : Report)], r.thread = t :=
      fun absent => forall_mem_singleton.2 rfl
    simp only [World.advance]
    split
    · exact .goto [_] (hthread _) rfl rfl rfl fun _ => trivial
    rename_i hfound
    simp only [not_or, not_not] at hfound
    refine .goto [_] (hthread _) (registry_modify _ n fun s => rfl) rfl rfl fun _ => ?_
    change (⟨t, n, _⟩ :: w.reports).find? (·.thread = t) = some ⟨t, n, true⟩
    rw [hfound.2.1]
    simp
  | release =>
    simp only [World.advance]
    split
    · exact .stuck
    · rename_i hs
      exact .release hs
  | unlock n => exact .quiet (registry_modify w n fun s => rfl) rfl rfl fun _ => trivial
  | done => exact .stuck

end

/-! ## Runs -/

structure Sound (sha256 : Hash) (w : World) : Prop where
  exact : w.registry.Exact
  owners : ∀ owner ∈ w.registry.owners, Session.validateID owner.1 = .ok () ∧
    ∃ attempt, owner.2 = candidateFor sha256 owner.1 attempt
  threads : ∀ (t : Nat) point, w.threads[t]? = some point → point.Fine w.reports t

/-- No state is released while another one of its session has its slot or its name. -/
def soleState : Move → World → Prop
  | .advance t _, w => ∀ n outcome s, w.threads[t]? = some (.release n outcome) →
      w.networks[n]? = some s → ∀ n' s', w.states s.sessionID = some n' →
      w.networks[n']? = some s' →
      s'.spec.slot = s.spec.slot ∨ s'.spec.namespace = s.spec.namespace → n' = n
  | _, _ => True

section

variable {sha256 : Hash} {w : World} {t : Nat} {x : Answer} {point : Point}

theorem Sound.live_valid (h : Sound sha256 w) {sessionID spec}
    (hlive : w.registry.Live sessionID spec) :
    Session.validateID sessionID = .ok () ∧
      ∃ attempt, spec = candidateFor sha256 sessionID attempt := by
  obtain ⟨n, -, howner⟩ := hlive
  obtain ⟨hval, attempt, heq⟩ := h.owners (sessionID, spec) (mem_of_getElem? howner)
  exact ⟨hval, attempt, heq⟩

variable {κ : Type} {k : κ} {move : Move} {id : String}

/-- An entry that is empty or missing is missing, since no session has an empty identifier. -/
theorem Sound.free (h : Sound sha256 w) {table : κ → Option String} {field : TopologySpec → κ}
    (hents : w.registry.Entries table field) (hemp : (table k).getD "" = "") :
    table k = none := by
  cases hk : table k with
  | none => rfl
  | some =>
    rw [hk] at hemp
    subst hemp
    obtain ⟨spec, hlive, -⟩ := (hents k _).1 hk
    exact absurd (h.live_valid hlive).1 (by decide)

/-- The other threads are where they were, and know what they knew. -/
theorem fine_goto {w' : World} {next : Point} {reports : List Report}
    (h : ∀ (t : Nat) p, w.threads[t]? = some p → p.Fine w.reports t)
    (hthread : ∀ r ∈ reports, r.thread = t) (hthreads : w'.threads = w.threads)
    (hrep : w'.reports = reports ++ w.reports) (hnext : next.Fine w'.reports t) :
    ∀ (t' : Nat) p, (w'.goto t next).threads[t']? = some p → p.Fine w'.reports t' := by
  intro t' p hp
  rw [World.goto, hthreads] at hp
  by_cases hsame : t = t'
  · subst hsame
    rw [List.getElem?_set_self'] at hp
    obtain ⟨_, -, rfl⟩ := Option.map_eq_some_iff.1 hp
    exact hnext
  · rw [List.getElem?_set_ne hsame] at hp
    have hwas := h t' p hp
    cases p with
    | release =>
      -- the reports are to another thread
      have hother : reports.find? (·.thread = t') = none :=
        List.find?_eq_none.2 fun r hr => by simpa [hthread r hr] using hsame
      rwa [hrep, Point.Fine, List.find?_append, hother]
    | _ => exact hwas

/-- **One step of a thread.** -/
theorem Sound.advance (h : Sound sha256 w) (hgrd : soleState (.advance t x) w)
    (hpoint : w.threads[t]? = some point) : Sound sha256 (w.advance sha256 t x point) := by
  have hfine := h.threads t point hpoint
  have hadv := advance_advances sha256 t x w point
  generalize w.advance sha256 t x point = w' at hadv
  cases hadv with
  | stuck => exact h
  | goto reports hthread hregistry hthreads hrep hnext =>
    exact ⟨hregistry ▸ h.exact, hregistry ▸ h.owners,
      fine_goto h.threads hthread hthreads hrep (hnext hfine)⟩
  | register hsts hslot hname hregistry hnext =>
    refine ⟨?_, ?_, fine_goto h.threads (forall_mem_nil _) rfl rfl hnext⟩
    · rw [registry_goto, hregistry]
      exact h.exact.register hsts (h.free h.exact.reservations hslot)
        (h.free h.exact.names hname)
    rw [registry_goto, hregistry]
    intro owner howner
    rcases mem_append.1 howner with hold | hnew
    · exact h.owners owner hold
    · rw [mem_singleton.1 hnew]
      exact ⟨hfine, _, rfl⟩
  | @release n outcome s hs =>
    have howner : w.registry.owners[n]? = some (s.sessionID, s.spec) := by
      simp [World.registry, NetworkState.owner, hs]
    refine ⟨h.exact.release howner fun n' spec' hn' howner' => ?_, h.owners,
      fine_goto h.threads (forall_mem_nil _) rfl rfl trivial⟩
    simp only [World.registry, List.getElem?_map, Option.map_eq_some_iff] at howner'
    obtain ⟨s', hs', howner'⟩ := howner'
    obtain rfl : s'.spec = spec' := congrArg Prod.snd howner'
    exact hgrd _ _ _ hpoint hs n' s' hn' hs'

theorem Sound.step (h : Sound sha256 w) (hgrd : soleState move w) :
    Sound sha256 (w.step sha256 move) := by
  -- a thread that starts is at a point where nothing need be known
  have hstart point (hfine : ∀ t, point.Fine w.reports t) :
      Sound sha256 { w with threads := w.threads ++ [point] } := by
    refine ⟨h.exact, h.owners, fun t p hp => ?_⟩
    rw [List.getElem?_append, List.getElem?_singleton] at hp
    split_ifs at hp
    · exact h.threads t p hp
    · cases hp
      exact hfine t
  cases move with
  | create request => exact hstart (.create request) fun _ => trivial
  | cleanup sessionID => exact hstart (.cleanup sessionID) fun _ => trivial
  | advance =>
    simp only [World.step]
    split
    · exact h
    · rename_i hpoint
      exact h.advance hgrd hpoint

theorem reachable_sound (h : (managerMachine sha256).Reachable soleState w) : Sound sha256 w := by
  refine h.inv ?_ fun move w hgrd hw => hw.step hgrd
  rintro _ rfl
  refine ⟨⟨fun id n hn => ?_, fun slot id => ?_, fun name id => ?_⟩, ?_, fun t p hp => ?_⟩
  · cases hn
  · refine ⟨fun hid => (by cases hid), ?_⟩
    rintro ⟨spec, ⟨n, hn, -⟩, -⟩
    cases hn
  · refine ⟨fun hid => (by cases hid), ?_⟩
    rintro ⟨spec, ⟨n, hn, -⟩, -⟩
    cases hn
  · exact forall_mem_nil _
  · cases hp

/-- The next step takes a thread through the release of a state with a given property, whose
resources `AuditAbsent` has reported absent to that thread. -/
def ReleasesAbsent (w : World) (move : Move) (P : TopologySpec → Prop) : Prop :=
  ∃ t x n outcome s, move = .advance t x ∧ w.threads[t]? = some (.release n outcome) ∧
    w.networks[n]? = some s ∧ P s.spec ∧ w.reports.find? (·.thread = t) = some ⟨t, n, true⟩

/-- **A step that removes an entry** of one of the tables releases the state it is for. -/
theorem Sound.released (h : Sound sha256 w) [DecidableEq κ] (table : Registry → κ → Option String)
    (field : TopologySpec → κ) (hreg : ∀ r id spec, table (r.register id spec) =
      Function.update (table r) (field spec) (some id))
    (hrel : ∀ r n id spec, table (r.release n id spec) =
      deleteIf (table r) (field spec) id) (hfree : ∀ request attempt, w.states request = none →
      (w.reservations (candidateFor sha256 request attempt).slot).getD "" = "" →
      (w.names (candidateFor sha256 request attempt).namespace).getD "" = "" →
      table w.registry (field (candidateFor sha256 request attempt)) = none)
    (hk : table w.registry k = some id) (hgone : table (w.step sha256 move).registry k ≠ some id) :
    ReleasesAbsent w move fun spec => field spec = k := by
  cases move with
  | create request | cleanup => exact absurd hk hgone
  | advance t x =>
    simp only [World.step] at hgone
    cases hpoint : w.threads[t]? with
    | none =>
      rw [hpoint] at hgone
      exact absurd hk hgone
    | some point =>
      rw [hpoint] at hgone
      have hfine := h.threads t point hpoint
      have hadv := advance_advances sha256 t x w point
      simp only at hgone
      generalize w.advance sha256 t x point = w' at hgone hadv
      cases hadv with
      | stuck => exact absurd hk hgone
      | goto _ _ hregistry =>
        rw [registry_goto, hregistry] at hgone
        exact absurd hk hgone
      | @register request policy attempt _ _ hsts hslot hname hregistry =>
        rw [registry_goto, hregistry, hreg] at hgone
        -- the entry that is made was free
        by_cases hnew : k =
            field (candidateFor sha256 request.sessionID (.ofNat attempt))
        · rw [hnew, hfree _ _ hsts hslot hname] at hk
          cases hk
        · rw [update_of_ne hnew] at hgone
          exact absurd hk hgone
      | @release n outcome s hs =>
        refine ⟨t, x, n, outcome, s, rfl, hpoint, hs, ?_, hfine⟩
        by_contra hne
        change table (w.registry.release n s.sessionID s.spec) k ≠ some id at hgone
        rw [hrel] at hgone
        exact hgone (Registry.deleteIf_eq_some.2 ⟨hk, fun hboth => hne hboth.1.symm⟩)

/-- Topologies without a slot, a suffix, an address or a name in common. -/
def Separate (spec spec' : TopologySpec) : Prop :=
  spec.slot ≠ spec'.slot ∧
  (∃ suffix suffix', suffix ≠ suffix' ∧ spec = topologyOf suffix spec.slot ∧
    spec' = topologyOf suffix' spec'.slot) ∧
  (∀ p ∈ spec.networks, ∀ q ∈ spec'.networks, p.Apart q) ∧
  spec.namespace ≠ spec'.namespace ∧ List.Disjoint spec.interfaces spec'.interfaces ∧
  List.Disjoint spec.tables spec'.tables

theorem separate_of_ne {id' attempt attempt'}
    (hslot : (candidateFor sha256 id attempt).slot ≠ (candidateFor sha256 id' attempt').slot)
    (hname : (candidateFor sha256 id attempt).namespace ≠
      (candidateFor sha256 id' attempt').namespace) :
    Separate (candidateFor sha256 id attempt) (candidateFor sha256 id' attempt') := by
  have hsuff := namespace_inj hname
  obtain ⟨-, hifs, htabl⟩ := @names_differ _ _ (slotFor sha256 id attempt)
    (slotFor sha256 id' attempt') hsuff
  exact ⟨hslot, ⟨_, _, hsuff, rfl, rfl⟩, networks_apart hslot, hname, hifs, htabl⟩

/-- **Allocations never collide**, in every run in which no state is released while another one
of its session has its slot or its name. The live states are separate, their interfaces have names
the kernel takes, the tables hold their entries and no others, and an entry is removed only by a
thread to which `AuditAbsent` has reported the resources of its state absent. -/
theorem allocations_separate (sha256 : Hash) {w : World}
    (h : (managerMachine sha256).Reachable soleState w) :
    (∀ id id' spec spec', w.registry.Live id spec → w.registry.Live id' spec' → id ≠ id' →
      Separate spec spec') ∧
    (∀ id spec, w.registry.Live id spec → spec.networks.Pairwise Prefix.Apart ∧
      ∀ name ∈ spec.interfaces, name.utf8ByteSize ≤ 15) ∧
    (∀ slot id, w.reservations slot = some id ↔
      ∃ spec, w.registry.Live id spec ∧ spec.slot = slot) ∧
    (∀ name id, w.names name = some id ↔
      ∃ spec, w.registry.Live id spec ∧ spec.namespace = name) ∧
    (∀ move slot id, w.reservations slot = some id →
      (w.step sha256 move).reservations slot ≠ some id →
        ReleasesAbsent w move fun spec => spec.slot = slot) ∧
    (∀ move name id, w.names name = some id → (w.step sha256 move).names name ≠ some id →
      ReleasesAbsent w move fun spec => spec.namespace = name) := by
  have hsound := reachable_sound h
  refine ⟨fun id id' spec spec' hlive hlive' hne => ?_, fun id spec hlive => ?_,
    hsound.exact.reservations, hsound.exact.names, fun move slot id => ?_,
    fun move name id => ?_⟩
  · obtain ⟨-, attempt, rfl⟩ := hsound.live_valid hlive
    obtain ⟨-, attempt', rfl⟩ := hsound.live_valid hlive'
    refine separate_of_ne (fun hsame => hne ?_) fun hsame => hne ?_
    · exact hsound.exact.reservations.session_eq hlive hlive' hsame
    · exact hsound.exact.names.session_eq hlive hlive' hsame
  · obtain ⟨-, attempt, rfl⟩ := hsound.live_valid hlive
    exact ⟨networks_pairwise _ _, interface_short sha256 id attempt⟩
  · exact hsound.released Registry.reservations (·.slot) (fun _ _ _ => rfl) (fun _ _ _ _ => rfl)
      fun _ _ _ hslot _ => hsound.free hsound.exact.reservations hslot
  · exact hsound.released Registry.names (·.namespace) (fun _ _ _ => rfl) (fun _ _ _ _ => rfl)
      fun _ _ _ _ => hsound.free hsound.exact.names

end

/-! ## A sample run, and one that goes wrong -/

def firstID : String := "pvm-" ++ String.ofList (List.replicate 32 'a')
def secondID : String := "pvm-" ++ String.ofList (List.replicate 32 'b')

/-- A digest of equal bytes, which depend on the session. -/
def sampleDigest : Hash := fun text =>
  if firstID.toList.isPrefixOf text.toList then Vector.replicate 32 7 else Vector.replicate 32 8

/-- A digest whose first byte depends on the session, but whose slot does not. -/
def collidingDigest : Hash := fun text =>
  if firstID.toList.isPrefixOf text.toList then Vector.replicate 32 7
  else (Vector.replicate 32 7).set 0 8

def succeeds : Answer := { view := .ok ⟨[⟨.v4 0xb99f9d01, 51820⟩], none⟩ }
def fails : Answer := { succeeds with fault := some .other }

/-- A new call of `Create`, which is taken to the registration of its state. -/
def registering (t : Nat) (sessionID : String) : List Move :=
  .create ⟨sessionID, ⟨1000, "home".toList⟩, 0⟩ :: List.replicate 6 (.advance t succeeds)

def sampleMoves : List Move := registering 0 firstID ++ registering 1 secondID

/-- The test of `soleState` for runs without a release. -/
def unreleased : Move → World → Bool
  | .advance t _, w =>
    match w.threads[t]? with
    | some (.release _ _) => false
    | _ => true
  | _, _ => true

theorem soleState_of_unreleased (move : Move) (w : World) (h : unreleased move w = true) :
    soleState move w := by
  cases move with
  | advance =>
    intro n outcome s hpoint
    simp [unreleased, hpoint] at h
  | _ => trivial

theorem allocations_separate_sample : ∃ w,
    (managerMachine sampleDigest).Reachable soleState w ∧
    Separate (candidateFor sampleDigest firstID 0) (candidateFor sampleDigest secondID 0) ∧
    w.reservations (candidateFor sampleDigest firstID 0).slot = some firstID := by
  obtain ⟨w, hw⟩ : ∃ w, (managerMachine sampleDigest).play sampleMoves newManager = w := ⟨_, rfl⟩
  have hreach : (managerMachine sampleDigest).Reachable soleState w := by
    rw [← hw]
    exact Machine.reachable_play soleState_of_unreleased rfl (by decide +kernel)
  have hlive : (w.states firstID = some 0 ∧
      w.registry.owners[0]? = some (firstID, candidateFor sampleDigest firstID 0)) ∧
      w.states secondID = some 1 ∧
      w.registry.owners[1]? = some (secondID, candidateFor sampleDigest secondID 0) := by
    rw [← hw]
    decide +kernel
  obtain ⟨hsep, -, hres, -⟩ := allocations_separate sampleDigest hreach
  exact ⟨w, hreach, hsep _ _ _ _ ⟨0, hlive.1⟩ ⟨1, hlive.2⟩ (by decide +kernel),
    (hres _ _).2 ⟨_, ⟨0, hlive.1⟩, rfl⟩⟩

/-- The first session's `Create` fails after it has registered a state, and is taken down twice,
by itself and by a `Cleanup`. In between the session registers another state, whose entries the
second of the two removes. -/
def collidingMoves : List Move :=
  registering 0 firstID ++ [.advance 0 fails, .cleanup firstID, .advance 1 succeeds] ++
    List.replicate 6 (.advance 0 succeeds) ++ registering 2 firstID ++
    List.replicate 4 (.advance 1 succeeds) ++ registering 3 secondID

/-- Two live sessions share a slot, and the first has lost its entries. -/
theorem allocations_collide : ∃ w,
    (managerMachine collidingDigest).Reachable (Machine.free _ _) w ∧ firstID ≠ secondID ∧
    w.registry.Live firstID (candidateFor collidingDigest firstID 0) ∧
    w.registry.Live secondID (candidateFor collidingDigest secondID 0) ∧
    (candidateFor collidingDigest firstID 0).slot =
      (candidateFor collidingDigest secondID 0).slot ∧
    w.names (candidateFor collidingDigest firstID 0).namespace = none := by
  obtain ⟨w, hw⟩ : ∃ w, (managerMachine collidingDigest).play collidingMoves newManager = w :=
    ⟨_, rfl⟩
  have hreach : (managerMachine collidingDigest).Reachable (Machine.free _ _) w := by
    rw [← hw]
    exact Machine.reachable_play_free collidingMoves rfl
  have hlive : (w.states firstID = some 1 ∧
      w.registry.owners[1]? = some (firstID, candidateFor collidingDigest firstID 0)) ∧
      (w.states secondID = some 2 ∧
      w.registry.owners[2]? = some (secondID, candidateFor collidingDigest secondID 0)) ∧
      w.names (candidateFor collidingDigest firstID 0).namespace = none := by
    rw [← hw]
    decide +kernel
  exact ⟨w, hreach, by decide +kernel, ⟨1, hlive.1⟩, ⟨2, hlive.2.1⟩, by decide +kernel, hlive.2.2⟩

end PrivateVm.Network
