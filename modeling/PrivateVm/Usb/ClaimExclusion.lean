import PrivateVm.Usb.Claim

set_option autoImplicit false

/-! # USB claims exclude each other

Calls of `Claim`, `Release` and `CleanupSession` run in any number of threads. The tables of the
manager agree at every moment, every handle that is not cleared belongs to the entry of its
device, and so no device has two of them.
-/

namespace PrivateVm.Usb

open Program Program.Contract Option Function

/-! ## Finite tables -/

section

variable {β : Type} (l : AList fun _ : String => β) (a a' : String) (b : β)

theorem lookup_insert_apply :
    (l.insert a b).lookup a' = if a' = a then some b else l.lookup a' := by
  split
  · rename_i h
    rw [h, AList.lookup_insert]
  · rename_i h
    rw [AList.lookup_insert_ne h]

theorem lookup_erase_apply : (l.erase a).lookup a' = if a' = a then none else l.lookup a' := by
  split
  · rename_i h
    rw [h, AList.lookup_erase]
  · rename_i h
    rw [AList.lookup_erase_ne h]

end

/-! ## The invariant -/

/-- A handle with at least what another one has. -/
structure Handle.LE (a b : Handle) : Prop where
  hash : b.hash = a.hash
  released : a.released = true → b.released = true
  audited : a.audited = true → b.audited = true

theorem Handle.LE.refl (a : Handle) : a.LE a := ⟨rfl, id, id⟩

/-- `Release` and `AuditAbsent` of a handle have both succeeded. -/
def Claims.Cleared (s : Claims) (n : Nat) : Prop :=
  ∃ handle, s.handles n = some handle ∧ handle.released = true ∧ handle.audited = true

structure Claims.Sound (s : Claims) : Prop where
  index : ∀ {hash id}, s.devices hash = some id → id ≠ "" →
    ∃ record, s.claims.lookup id = some record ∧ record.hash = hash
  live : ∀ {id record}, s.claims.lookup id = some record → s.devices record.hash = some id
  used : ∀ {id record}, s.claims.lookup id = some record → s.drawn id = some .used
  named : ∀ {id draw}, s.drawn id = some draw → id ≠ ""
  acquiring : ∀ hash, s.devices hash = some "" ↔ s.acquirer hash ≠ none
  acquired : ∀ {hash n}, s.acquired hash = some n → s.acquirer hash ≠ none
  owned : ∀ {n handle}, s.handles n = some handle → ¬ s.Cleared n →
    s.acquired handle.hash = some n ∨
      ∃ id record, s.claims.lookup id = some record ∧ record.handle = n ∧
        record.hash = handle.hash
  next : ∀ {n handle}, s.handles n = some handle → n < s.nextHandle
  acquiredGiven : ∀ {hash n}, s.acquired hash = some n → s.handles n ≠ none
  claimGiven : ∀ {id record}, s.claims.lookup id = some record → s.handles record.handle ≠ none

def Claims.before (t : Nat) : ClaimOp → Claims → Prop
  | .acquire device, s =>
    s.acquirer device.identity.usbGuardHash = some t ∧
      s.acquired device.identity.usbGuardHash = none
  | .unreserve hash, s => s.acquirer hash = some t ∧ ∀ n, s.acquired hash = some n → s.Cleared n
  | .install id record, s =>
    s.acquirer record.hash = some t ∧ s.acquired record.hash = some record.handle ∧
      s.drawn id = some (.fresh t)
  | .unlock id, s => s.cleanupMu id = some t
  | .remove id hash, s =>
    s.cleanupMu id = some t ∧
      ∃ record, s.claims.lookup id = some record ∧ record.hash = hash ∧ s.Cleared record.handle
  | _, _ => True

namespace Claims

theorem sound_newClaimManager : newClaimManager.Sound where
  index h := by cases h
  live h := by cases h
  used h := by cases h
  named h := by cases h
  acquiring hash := by simp [newClaimManager]
  acquired h := by cases h
  owned h := by cases h
  next h := by cases h
  acquiredGiven h := by cases h
  claimGiven h := by cases h

/-- The handles of a state are still there in another one. -/
def Keeps (s s' : Claims) : Prop :=
  ∀ n handle, s.handles n = some handle →
    ∃ handle', s'.handles n = some handle' ∧ handle.LE handle'

variable {s : Claims} {n : Nat} {s' : Claims} {t : Nat} {o : ClaimOp} {x : ClaimChoice}

theorem Keeps.cleared (h : s.Keeps s') (hn : s.Cleared n) : s'.Cleared n := by
  obtain ⟨handle, hhd, hrel, haud⟩ := hn
  obtain ⟨handle', hhd', hle⟩ := h n handle hhd
  exact ⟨handle', hhd', hle.released hrel, hle.audited haud⟩

theorem Keeps.given (h : s.Keeps s') (hn : s.handles n ≠ none) : s'.handles n ≠ none := by
  obtain ⟨handle, hhd⟩ := ne_none_iff_exists'.1 hn
  obtain ⟨handle', hhd', -⟩ := h n handle hhd
  rw [hhd']
  exact some_ne_none handle'

theorem keeps_mark {f : Handle → Handle} (hf : ∀ handle : Handle, handle.LE (f handle)) :
    s.Keeps (s.mark n f) := by
  intro n' handle hhd
  simp only [mark, update_apply]
  split
  · rename_i heq
    exact ⟨f handle, by rw [← heq, hhd, map_some], hf handle⟩
  · exact ⟨handle, hhd, .refl handle⟩

namespace Sound

variable {s : Claims} {t : Nat} {hash id : String} {record : ClaimRecord}

section

variable (h : s.Sound)

include h

/-- A device that is being acquired has no claim. -/
theorem hash_ne_of_acquirer (ht : s.acquirer hash = some t)
    (hclaim : s.claims.lookup id = some record) : record.hash ≠ hash := by
  rintro rfl
  have hemp := (h.acquiring record.hash).2 (by simp [ht])
  rw [h.live hclaim] at hemp
  exact h.named (h.used hclaim) (Option.some.inj hemp)

theorem drawID (hid : id ≠ "") (hnew : s.drawn id = none) :
    Sound { s with drawn := Function.update s.drawn id (some (.fresh t)) } := by
  obtain ⟨index, live, used, named, acquiring, acquired, owned, next, agiven, cgiven⟩ := h
  refine ⟨index, live, ?_, ?_, acquiring, acquired, owned, next, agiven, cgiven⟩ <;> grind

theorem reserve (hfree : s.devices hash = none) :
    Sound { s with
      devices := Function.update s.devices hash (some "")
      acquirer := Function.update s.acquirer hash (some t) } := by
  cases h
  constructor <;> simp only [Claims.Cleared] <;> grind [Claims.Cleared]

theorem give (ht : s.acquirer hash = some t) (hnone : s.acquired hash = none) :
    (s.give hash).Sound := by
  cases h
  constructor <;> simp only [Claims.give] <;>
    grind [Claims.Cleared]

theorem mark {n : Nat} {f : Handle → Handle}
    (hf : ∀ handle : Handle, handle.LE (f handle)) : (s.mark n f).Sound := by
  -- a handle after the call comes from one before it, of the same device
  have hback : ∀ {n' handle'}, (s.mark n f).handles n' = some handle' →
      ∃ handle, s.handles n' = some handle ∧ handle'.hash = handle.hash := by
    intro n' handle' h'
    simp only [Claims.mark, update_apply] at h'
    split at h'
    · rename_i heq
      obtain ⟨handle, hhd, rfl⟩ := map_eq_some_iff.1 h'
      exact ⟨handle, heq ▸ hhd, (hf handle).hash⟩
    · exact ⟨handle', h', rfl⟩
  have hkeeps : s.Keeps (s.mark n f) := keeps_mark hf
  refine ⟨h.index, h.live, h.used, h.named, h.acquiring, h.acquired, fun hhd' hnot => ?_,
    fun hhd' => ?_, fun hn => hkeeps.given (h.acquiredGiven hn),
    fun hn => hkeeps.given (h.claimGiven hn)⟩
  · obtain ⟨handle, hhd, hsame⟩ := hback hhd'
    rw [hsame]
    exact h.owned hhd fun hclr => hnot (hkeeps.cleared hclr)
  · obtain ⟨handle, hhd, -⟩ := hback hhd'
    exact h.next hhd

theorem unreserve (ht : s.acquirer hash = some t)
    (hclr : ∀ n, s.acquired hash = some n → s.Cleared n) :
    (Claims.settled { s with devices := Function.update s.devices hash none } hash).Sound := by
  cases h
  constructor <;> simp only [Claims.settled] <;>
    grind [Claims.Cleared]

theorem install (ht : s.acquirer record.hash = some t)
    (hhd : s.acquired record.hash = some record.handle)
    (hfr : s.drawn id = some (.fresh t)) :
    (Claims.settled { s with
      claims := s.claims.insert id record
      devices := Function.update s.devices record.hash (some id)
      drawn := Function.update s.drawn id (some .used) } record.hash).Sound := by
  cases h
  constructor <;>
    simp only [Claims.settled, lookup_insert_apply] <;>
    grind [Claims.Cleared]

theorem remove (hclaim : s.claims.lookup id = some record)
    (hclr : s.Cleared record.handle) : Sound { s with
      claims := s.claims.erase id
      devices := Function.update s.devices record.hash none } := by
  cases h
  constructor <;>
    simp only [update_apply, lookup_erase_apply] <;>
    grind [Claims.Cleared]

end

end Sound

theorem isPrefixOf_ne {id} (h : "usbclaim-".toList.isPrefixOf id.toList = true) : id ≠ "" := by
  rintro rfl
  exact absurd h (by decide)

/-- Every operation made when it may be made keeps the invariant. -/
theorem sound_exec (h : s.Sound) (hbefore : before t o s) (hen : enabled t o x s = true) :
    (exec t o x s).2.Sound := by
  cases o with
  | snapshot | contextErr | get | sessionClaims => exact h
  | randomClaimID =>
    simp only [exec]
    cases hid : x.id with
    | none => exact h
    | some =>
      simp only [enabled, hid, Bool.and_eq_true, isNone_iff_eq_none] at hen
      exact h.drawID (isPrefixOf_ne hen.1) hen.2
  | reserve hash =>
    simp only [exec]
    cases hfree : s.devices hash with
    | none => exact h.reserve hfree
    | some => exact h
  | acquire =>
    simp only [exec]
    split
    · exact h.give hbefore.1 hbefore.2
    · exact h
  | unreserve => exact h.unreserve hbefore.1 hbefore.2
  | release =>
    simp only [exec]
    split
    · exact h
    · exact h.mark fun _ => ⟨rfl, fun _ => rfl, id⟩
  | auditAbsent =>
    simp only [exec]
    split
    · exact h
    · exact h.mark fun _ => ⟨rfl, id, fun _ => rfl⟩
  | install => exact h.install hbefore.1 hbefore.2.1 hbefore.2.2
  | lock | unlock => exact { h with }
  | remove =>
    obtain ⟨-, record, hclaim, rfl, hclr⟩ := hbefore
    exact h.remove hclaim hclr

/-! ## What a step does to the others -/

/-- What a thread leaves alone when it makes an operation. -/
structure Evolves (s : Claims) (t : Nat) (s' : Claims) : Prop where
  acquirer : ∀ {hash t'}, t' ≠ t → (s'.acquirer hash = some t' ↔ s.acquirer hash = some t')
  acquired : ∀ {hash t'}, t' ≠ t → s.acquirer hash = some t' → s'.acquired hash = s.acquired hash
  fresh : ∀ {id t'}, t' ≠ t → s.drawn id = some (.fresh t') → s'.drawn id = some (.fresh t')
  used : ∀ {id}, s.drawn id = some .used → s'.drawn id = some .used
  claims : ∀ {id}, s.drawn id = some .used →
    s'.claims.lookup id = s.claims.lookup id ∨
      s'.claims.lookup id = none ∧ s.cleanupMu id = some t
  mutex : ∀ {id t'}, t' ≠ t → s.cleanupMu id = some t' → s'.cleanupMu id = some t'
  keeps : s.Keeps s'

theorem Evolves.refl (t : Nat) (s : Claims) : Evolves s t s where
  acquirer _ := .rfl
  acquired _ _ := rfl
  fresh _ h := h
  used h := h
  claims _ := .inl rfl
  mutex _ h := h
  keeps _ _ h := ⟨_, h, .refl _⟩

theorem evolves_exec (h : s.Sound) (hbefore : before t o s) (hen : enabled t o x s = true) :
    Evolves s t (exec t o x s).2 := by
  cases o with
  | snapshot | contextErr | get | sessionClaims => exact .refl t s
  | randomClaimID =>
    simp only [exec]
    cases hid : x.id with
    | none => exact .refl t s
    | some =>
      simp only [enabled] at hen
      refine { Evolves.refl t s with fresh := ?_, used := ?_ } <;>
        simp only [update_apply] <;> grind
  | reserve hash =>
    simp only [exec]
    cases hfree : s.devices hash with
    | some => exact .refl t s
    | none =>
      have hnone := (h.acquiring hash).2
      refine { Evolves.refl t s with acquirer := ?_ }
      grind
  | acquire =>
    simp only [exec]
    split
    · obtain ⟨ht, hnone⟩ := hbefore
      refine { Evolves.refl t s with acquired := ?_, keeps := ?_ }
      · simp only [give]
        grind
      · intro n handle hhd
        have hne : n ≠ s.nextHandle := (h.next hhd).ne
        exact ⟨handle, by simp only [give, update_of_ne hne, hhd], .refl handle⟩
    · exact .refl t s
  | unreserve =>
    obtain ⟨ht, -⟩ := hbefore
    refine { Evolves.refl t s with acquirer := ?_, acquired := ?_ } <;>
      simp only [exec, settled] <;> grind
  | release =>
    simp only [exec]
    split
    · exact .refl t s
    · exact { Evolves.refl t s with keeps := keeps_mark fun _ => ⟨rfl, fun _ => rfl, id⟩ }
  | auditAbsent =>
    simp only [exec]
    split
    · exact .refl t s
    · exact { Evolves.refl t s with keeps := keeps_mark fun _ => ⟨rfl, id, fun _ => rfl⟩ }
  | install =>
    obtain ⟨ht, -, hfr⟩ := hbefore
    refine { Evolves.refl t s with
      acquirer := ?_, acquired := ?_, fresh := ?_, used := ?_, claims := ?_ } <;>
      simp only [exec, settled, lookup_insert_apply] <;> grind
  | lock =>
    simp only [enabled] at hen
    refine { Evolves.refl t s with mutex := ?_ }
    simp only [exec]
    grind
  | unlock =>
    refine { Evolves.refl t s with mutex := ?_ }
    simp only [exec]
    grind [before]
  | remove =>
    obtain ⟨hmutex, -⟩ := hbefore
    refine { Evolves.refl t s with claims := ?_ }
    simp only [exec, lookup_erase_apply]
    grind

end Claims

/-! ## The contract -/

def claimContract (sha256 : Transfer.Bytes → Transfer.Digest) : Contract (claimPool sha256) where
  permits _ _ _ _ := True
  inv := Claims.Sound
  before := Claims.before
  keeps hinv hbefore henabled _ := Claims.sound_exec hinv hbefore henabled

/-- A thread that acquires nothing. -/
def Claims.Free (t : Nat) (s : Claims) : Prop := ∀ hash, s.acquirer hash ≠ some t

/-- A thread that acquires one device and has got `handle` for it. -/
structure Claims.Acquiring (t : Nat) (hash : String) (handle : Option Nat) (s : Claims) : Prop where
  acquirer : s.acquirer hash = some t
  only : ∀ {hash'}, s.acquirer hash' = some t → hash' = hash
  acquired : s.acquired hash = handle

/-- The identifier of a thread is still its own. -/
def Claims.Drawn (t : Nat) (id : String) (s : Claims) : Prop := s.drawn id = some (.fresh t)

/-- The table has a claim, or has had it. -/
def Claims.Known (id : String) (record : ClaimRecord) (s : Claims) : Prop :=
  s.drawn id = some .used ∧ (s.claims.lookup id = none ∨ s.claims.lookup id = some record)

/-- The table has a claim, whose mutex is held. -/
def Claims.Held (t : Nat) (id : String) (record : ClaimRecord) (s : Claims) : Prop :=
  s.drawn id = some .used ∧ s.cleanupMu id = some t ∧ s.claims.lookup id = some record

/-- A thread that acquires nothing and holds the mutex of a claim. -/
def Claims.Locked (t : Nat) (id : String) (s : Claims) : Prop :=
  s.Free t ∧ s.cleanupMu id = some t

/-- From a state, a program ends with a condition, whatever the other threads do. -/
abbrev Manages (sha256 : Transfer.Bytes → Transfer.Digest) (t : Nat) {β : Type} (p : ClaimProg β)
    (Q : β → Claims → Prop) : Claims → Prop := (claimContract sha256).Meets t p Q

open Claims

section

variable {sha256 : Transfer.Bytes → Transfer.Digest} {t : Nat} {hash id : String}
  {record : ClaimRecord}

/-- Conditions are stable when they survive what a step leaves alone. -/
theorem stable_of_evolves {A : Claims → Prop}
    (h : ∀ t' s s', t' ≠ t → s.Evolves t' s' → A s → A s') : (claimContract sha256).Stable t A := by
  rintro t' s _ hne ⟨o, x, hinv, hbefore, hen, -, rfl⟩ hs
  exact h t' s _ hne (evolves_exec hinv hbefore hen) hs

theorem stable_free : (claimContract sha256).Stable t (Free t) :=
  stable_of_evolves fun _ _ _ hne h hfree hash ht => hfree hash ((h.acquirer hne.symm).1 ht)

theorem stable_acquiring {handle} : (claimContract sha256).Stable t (Acquiring t hash handle) :=
  stable_of_evolves fun _ _ _ hne h hacq =>
    { acquirer := (h.acquirer hne.symm).2 hacq.acquirer
      only := fun ht => hacq.only ((h.acquirer hne.symm).1 ht)
      acquired := (h.acquired hne.symm hacq.acquirer).trans hacq.acquired }

theorem stable_drawn : (claimContract sha256).Stable t (Drawn t id) :=
  stable_of_evolves fun _ _ _ hne h => h.fresh hne.symm

theorem stable_cleared {n : Nat} : (claimContract sha256).Stable t (Cleared · n) :=
  stable_of_evolves fun _ _ _ _ h => h.keeps.cleared

theorem stable_locked : (claimContract sha256).Stable t (Locked t id) :=
  stable_free.and (stable_of_evolves fun _ _ _ hne h => h.mutex hne.symm)

theorem stable_known : (claimContract sha256).Stable t (Known id record) := by
  refine stable_of_evolves fun t' s s' _ h ⟨hused, hclaim⟩ => ⟨h.used hused, ?_⟩
  rcases h.claims hused with hsame | ⟨hnone, -⟩
  · rwa [hsame]
  · exact .inl hnone

theorem stable_held : (claimContract sha256).Stable t (Held t id record) := by
  refine stable_of_evolves fun t' s s' hne h ⟨hused, hmutex, hclaim⟩ =>
    ⟨h.used hused, h.mutex hne.symm hmutex, ?_⟩
  rcases h.claims hused with hsame | ⟨-, hother⟩
  · rwa [hsame]
  · rw [hmutex] at hother
    exact absurd (Option.some.inj hother).symm hne

end

/-! ## The programs -/

section

variable {sha256 : Transfer.Bytes → Transfer.Digest} {t : Nat} {hash id sessionID : String}
  {ownerUID : UInt32} {record : ClaimRecord} {s : Claims}

/-- A handle of which `Release` has succeeded. -/
def Claims.Released (n : Nat) (s : Claims) : Prop :=
  ∃ handle, s.handles n = some handle ∧ handle.released = true

variable {n : Nat} {β : Type} {Q : β → Claims → Prop} {handle : Option Nat}

theorem stable_released : (claimContract sha256).Stable t (Released n) := by
  refine stable_of_evolves fun t' s s' _ h ⟨handle, hhd, hrel⟩ => ?_
  obtain ⟨handle', hhd', hle⟩ := h.keeps n handle hhd
  exact ⟨handle', hhd', hle.released hrel⟩

theorem stable_given : (claimContract sha256).Stable t (·.handles n ≠ none) :=
  stable_of_evolves fun _ _ _ _ h => h.keeps.given

theorem Claims.released_mark (hn : s.handles n ≠ none) :
    (s.mark n ({ · with released := true })).Released n := by
  obtain ⟨handle, hhd⟩ := ne_none_iff_exists'.1 hn
  exact ⟨_, by simp only [mark, update_self, hhd]; rfl, rfl⟩

theorem Claims.cleared_mark (hn : s.Released n) :
    (s.mark n ({ · with audited := true })).Cleared n := by
  obtain ⟨handle, hhd, hrel⟩ := hn
  exact ⟨{ handle with audited := true },
    by simp [mark, hhd], hrel, rfl⟩

variable {A : Claims → Prop}

theorem meets_op_bind {o} {f : o.Res → ClaimProg β} (hA : (claimContract sha256).Stable t A)
    (hs : A s) (hbefore : ∀ s, s.Sound → A s → before t o s)
    (hf : ∀ s x, s.Sound → A s → enabled t o x s = true →
      Manages sha256 t (f (exec t o x s).1) Q (exec t o x s).2) :
    Manages sha256 t (.call o >>= f) Q s :=
  meets_call_bind hA hs hbefore fun s x hinv hs hen _ => hf s x hinv hs hen

/-- The release of a handle: what the caller knows otherwise stays, and a clean release clears
the handle. -/
theorem meets_releaseAndAudit_bind {f : Bool → ClaimProg β} (hA : (claimContract sha256).Stable t A)
    (hmark : ∀ s f, A s → A (s.mark n f)) (hs : A s) (hn : s.handles n ≠ none)
    (hfail : ∀ s, A s → Manages sha256 t (f false) Q s)
    (hclean : ∀ s, A s → s.Cleared n → Manages sha256 t (f true) Q s) :
    Manages sha256 t (releaseAndAudit n >>= f) Q s := by
  refine meets_bind (meets_op_bind (hA.and stable_given) ⟨hs, hn⟩ (fun _ _ _ => trivial) ?_)
  rintro s x hinv ⟨hs, hn⟩ -
  have hend : ∀ {s} {clean : Bool}, A s → (clean = true → s.Cleared n) →
      Manages sha256 t (pure clean)
        (fun a => Manages sha256 t (f a) Q) s := by
    intro s clean hs hclr
    refine meets_pure (A := fun s => A s ∧ (clean = true → s.Cleared n)) (hA.and ?_)
      ⟨hs, hclr⟩ fun s h => ?_
    · exact fun t' s s' hne hact h hc => stable_cleared t' s s' hne hact (h hc)
    · cases clean with
      | false => exact hfail s h.1
      | true => exact hclean s h.1 (h.2 rfl)
  by_cases hfails : x.fails = true
  · simp only [exec, if_pos hfails]
    exact hend hs fun h => Bool.noConfusion h
  simp only [exec, if_neg hfails]
  refine meets_op_bind (hA.and stable_released)
    ⟨hmark s _ hs, released_mark hn⟩ (fun _ _ _ => trivial) ?_
  rintro s x hinv ⟨hs, hrel⟩ -
  by_cases hfails : x.fails = true
  · simp only [exec, if_pos hfails]
    exact hend hs fun h => Bool.noConfusion h
  · simp only [exec, if_neg hfails]
    exact hend (hmark s _ hs) fun _ => cleared_mark hrel

/-- A device that a thread acquires, with the handle it has got and its identifier. -/
def Claims.Claiming (t : Nat) (id hash : String) (handle : Option Nat) (s : Claims) : Prop :=
  s.Acquiring t hash handle ∧ s.Drawn t id

theorem stable_claiming : (claimContract sha256).Stable t (Claiming t id hash handle) :=
  stable_acquiring.and stable_drawn

theorem Claims.Acquiring.free_settled {claims} {devices : String → Option String}
    {drawn : String → Option Draw} (h : s.Acquiring t hash handle) :
    (settled { s with claims := claims, devices := devices, drawn := drawn } hash).Free t := by
  intro hash' ht
  simp only [settled, update_apply] at ht
  split at ht
  · cases ht
  · rename_i hne
    exact hne (h.only ht)

/-- The end of a call that has let its device go. -/
theorem meets_free (b : β) (h : s.Free t) :
    Manages sha256 t (pure b : ClaimProg β) (fun _ => Free t) s :=
  meets_pure stable_free h fun _ h => h

theorem meets_unreserve_bind (b : β) (h : s.Acquiring t hash handle)
    (hclr : ∀ n, handle = some n → s.Cleared n) : Manages sha256 t
      (.call (.unreserve hash) >>= fun _ => (pure b : ClaimProg β))
      (fun _ => Free t) s := by
  refine meets_op_bind
    (A := fun s => s.Acquiring t hash handle ∧ ∀ n, handle = some n → s.Cleared n)
    (stable_acquiring.and ?_) ⟨h, hclr⟩ ?_ ?_
  · exact fun t' s s' hne hact h n hn => stable_cleared t' s s' hne hact (h n hn)
  · exact fun s _ h => ⟨h.1.acquirer, fun n hn => h.2 n (h.1.acquired.symm.trans hn)⟩
  · exact fun s x _ h _ => meets_free b h.1.free_settled

theorem meets_install_bind (b : β) (h : s.Claiming t id record.hash (some record.handle)) :
    Manages sha256 t
      (.call (.install id record) >>= fun _ => (pure b : ClaimProg β))
      (fun _ => Free t) s := by
  refine meets_op_bind stable_claiming h ?_ ?_
  · exact fun s _ h => ⟨h.1.acquirer, h.1.acquired, h.2⟩
  · exact fun s x _ h _ => meets_free b h.1.free_settled

theorem meets_abandonClaim {failed incomplete}
    (h : s.Claiming t id record.hash (some record.handle)) (hgiven : s.handles record.handle ≠ none)
    :
    Manages sha256 t (abandonClaim id record failed incomplete)
      (fun _ => Free t) s := by
  refine meets_releaseAndAudit_bind stable_claiming (fun s f h => ?_) h hgiven (fun s h => ?_)
    fun s h hclr => ?_
  · exact ⟨{ h.1 with }, h.2⟩
  · exact meets_install_bind _ h
  · refine meets_unreserve_bind _ h.1 fun n hn => ?_
    rwa [← Option.some.inj hn]

theorem Claims.Claiming.give {n} (h : s.Claiming t id hash n) :
    (s.give hash).Claiming t id hash (some s.nextHandle) :=
  ⟨⟨h.1.acquirer, h.1.only, update_self ..⟩, h.2⟩

theorem Claims.given_give (s : Claims) (hash : String) :
    (s.give hash).handles s.nextHandle ≠ none := by
  simp only [give, update_self]
  exact some_ne_none _

theorem meets_acquireClaim {device} {record : Nat → ClaimRecord}
    (hrec : ∀ n, (record n).hash = device.identity.usbGuardHash ∧ (record n).handle = n)
    (h : s.Claiming t id device.identity.usbGuardHash none) :
    Manages sha256 t (acquireClaim id record device) (fun _ => Free t) s := by
  refine meets_op_bind stable_claiming h (fun s _ h => ⟨h.1.acquirer, h.1.acquired⟩) ?_
  intro s x hsound h _
  simp only [exec]
  split_ifs
  · have hclm := h.give
    obtain ⟨hhash, hhd⟩ := hrec s.nextHandle
    have hgiven := s.given_give device.identity.usbGuardHash
    rw [← hhash] at hclm hgiven ⊢
    cases x.fails with
    | true => exact meets_abandonClaim (hhd.symm ▸ hclm) (hhd.symm ▸ hgiven)
    | false =>
      refine meets_op_bind (stable_claiming.and stable_given) ⟨hclm, hgiven⟩
        (fun _ _ _ => trivial) ?_
      rintro s' x' - ⟨hclm, hgiven⟩ -
      split
      · exact meets_abandonClaim (hhd.symm ▸ hclm) (hhd.symm ▸ hgiven)
      · exact meets_install_bind _ (hhd.symm ▸ hclm)
  · cases x.fails <;> exact meets_unreserve_bind _ h.1 fun n hn => by cases hn

theorem Claims.Free.reserve (h : s.Free t) (hnone : s.acquired hash = none)
    {devices : String → Option String} :
    Acquiring t hash none { s with
      devices := devices
      acquirer := Function.update s.acquirer hash (some t) } where
  acquirer := update_self ..
  only := by
    intro hash' ht
    by_contra hne
    simp only [update_of_ne hne] at ht
    exact h hash' ht
  acquired := hnone

theorem Claims.Sound.acquired_eq_none (h : s.Sound) (hfree : s.devices hash = none) :
    s.acquired hash = none := by
  by_contra hsome
  obtain ⟨n, hn⟩ := ne_none_iff_exists'.1 hsome
  rw [(h.acquiring hash).2 (h.acquired hn)] at hfree
  cases hfree

theorem meets_claim {enrollment} (h : s.Free t) :
    Manages sha256 t (claim sha256 sessionID ownerUID enrollment) (fun _ => Free t) s := by
  unfold claim
  split
  · exact meets_free _ h
  refine meets_op_bind stable_free h (fun _ _ _ => trivial) fun s x _ h _ => ?_
  split
  · exact meets_free _ h
  rename_i device _
  refine meets_op_bind stable_free h (fun _ _ _ => trivial) fun s x _ h _ => ?_
  split
  · exact meets_free _ h
  refine meets_op_bind stable_free h (fun _ _ _ => trivial) fun s x _ h _ => ?_
  simp only [exec]
  cases x.id with
  | none => exact meets_free _ h
  | some id =>
    have hdrawn : Drawn t id
        { s with drawn := Function.update s.drawn id (some (.fresh t)) } :=
      update_self ..
    refine meets_op_bind (stable_free.and stable_drawn) ⟨h, hdrawn⟩ (fun _ _ _ => trivial) ?_
    rintro s x hsound ⟨h, hdrawn⟩ -
    cases hdev : s.devices device.identity.usbGuardHash with
    | some =>
      simp only [exec, hdev]
      exact meets_free _ h
    | none =>
      simp only [exec, hdev]
      exact meets_acquireClaim (fun _ => ⟨rfl, rfl⟩)
        ⟨h.reserve (hsound.acquired_eq_none hdev), hdrawn⟩

/-- `Release` while it holds the mutex: it gives it back as it has got it. -/
theorem meets_releaseLocked_bind {f : Except ClaimError Unit → ClaimProg β}
    (hlock : s.Locked t id) (hknown : s.Known id record)
    (hf : ∀ r s, s.Locked t id → Manages sha256 t (f r) Q s) :
    Manages sha256 t (releaseLocked id record >>= f) Q s := by
  have hend : ∀ {s} r, s.Locked t id → Manages sha256 t
      (pure r)
      (fun r => Manages sha256 t (f r) Q) s :=
    fun r h => meets_pure stable_locked h fun s h => hf r s h
  refine meets_bind (meets_op_bind (stable_locked.and stable_known) ⟨hlock, hknown⟩
    (fun _ _ _ => trivial) ?_)
  rintro s x hsound ⟨hlock, hused, hclaim⟩ -
  simp only [exec]
  rcases hclaim with hnone | hsome
  · rw [hnone]
    exact hend _ hlock
  rw [hsome]
  refine meets_releaseAndAudit_bind
    (stable_locked.and stable_held) (fun s f h => h) ⟨hlock, hused, hlock.2, hsome⟩
    (hsound.claimGiven hsome) (fun s h => hend _ h.1) ?_
  intro s ⟨hlock, hheld⟩ hclr
  refine meets_op_bind ((stable_locked.and stable_held).and stable_cleared)
    ⟨⟨hlock, hheld⟩, hclr⟩ ?_ fun s x _ h _ => hend _ h.1.1
  exact fun s _ ⟨⟨_, hheld⟩, hclr⟩ => ⟨hheld.2.1, record, hheld.2.2, rfl, hclr⟩

theorem meets_release_bind {f : Except ClaimError Unit → ClaimProg β} (hfree : s.Free t)
    (hf : ∀ r s, s.Free t → Manages sha256 t (f r) Q s) :
    Manages sha256 t (release id sessionID ownerUID >>= f) Q s := by
  have hend : ∀ {s} r, s.Free t → Manages sha256 t
      (pure r)
      (fun r => Manages sha256 t (f r) Q) s :=
    fun r h => meets_pure stable_free h fun s h => hf r s h
  refine meets_bind (meets_op_bind stable_free hfree (fun _ _ _ => trivial) ?_)
  intro s x hsound hfree _
  simp only [exec]
  cases hfound : s.claims.lookup id with
  | none => exact hend _ hfree
  | some =>
    simp only [ownedClaim]
    split_ifs
    · exact hend _ hfree
    · refine meets_op_bind (stable_free.and stable_known)
        ⟨hfree, hsound.used hfound, .inr hfound⟩ (fun _ _ _ => trivial) ?_
      rintro s x - ⟨hfree, hknown⟩ -
      refine meets_releaseLocked_bind ⟨hfree, update_self ..⟩ hknown ?_
      intro r s hlock
      exact meets_op_bind stable_locked hlock (fun s _ h => h.2) fun s x _ h _ => hend _ h.1

theorem meets_releaseEach {ids} (hfree : s.Free t) :
    Manages sha256 t (releaseEach sessionID ownerUID ids) (fun _ => Free t) s := by
  induction ids generalizing s with
  | nil => exact meets_free _ hfree
  | cons id ids ih =>
    refine meets_release_bind hfree fun r s hfree => ?_
    cases r with
    | error => exact meets_free _ hfree
    | ok => exact ih hfree

theorem meets_cleanupSession (hfree : s.Free t) :
    Manages sha256 t (cleanupSession sessionID ownerUID) (fun _ => Free t) s :=
  meets_op_bind stable_free hfree (fun _ _ _ => trivial) fun _ _ _ h _ => meets_releaseEach h

end

/-! ## Every run -/

/-- The programs of the calls keep to the contract. -/
theorem claims_kept (sha256 : Transfer.Bytes → Transfer.Digest) :
    (claimContract sha256).Kept (· = newClaimManager) Claims.Free where
  init := by
    rintro _ rfl
    exact ⟨Claims.sound_newClaimManager, fun t hash h => by cases h⟩
  stable _ := stable_free
  body t c s _ hfree := by
    cases c with
    | claim =>
      exact meets_bind ((meets_claim hfree).post fun _ s => meets_free _)
    | release =>
      exact meets_release_bind hfree fun _ s h => meets_free _ h
    | cleanupSession =>
      exact meets_bind ((meets_cleanupSession hfree).post fun _ s => meets_free _)

/-- What the claims of a manager are at one moment; `busy` are the threads that run a call. -/
structure Claims.Exclusive (s : Claims) (busy : Nat → Prop) : Prop where
  /-- One handle at most of a device has not been released and audited. -/
  unique : ∀ n n' handle handle', s.handles n = some handle → s.handles n' = some handle' →
    handle.hash = handle'.hash → ¬ s.Cleared n → ¬ s.Cleared n' → n = n'
  live : ∀ id record, s.claims.lookup id = some record → s.devices record.hash = some id
  index : ∀ hash id, s.devices hash = some id →
    (∃ record, s.claims.lookup id = some record ∧ record.hash = hash) ∨
      id = "" ∧ ∃ t, s.acquirer hash = some t ∧ busy t
  claimable : ∀ hash, s.devices hash = none →
    ∀ n handle, s.handles n = some handle → handle.hash = hash → s.Cleared n

section

variable {s : Claims} (h : s.Sound)
include h

/-- A handle that is not cleared has its device taken, by its acquisition or by its claim. -/
theorem Claims.Sound.taken {n : Nat} {handle} (hn : s.handles n = some handle)
    (hopen : ¬ s.Cleared n) : s.devices handle.hash ≠ none := by
  rcases h.owned hn hopen with hacq | ⟨id, record, hclaim, -, hhash⟩
  · rw [(h.acquiring handle.hash).2 (h.acquired hacq)]
    exact some_ne_none _
  · rw [← hhash, h.live hclaim]
    exact some_ne_none _

theorem Claims.Sound.unique {n n' : Nat} {handle handle'} (hn : s.handles n = some handle)
    (hn' : s.handles n' = some handle') (hhash : handle.hash = handle'.hash) (hopen : ¬ s.Cleared n)
    (hopen' : ¬ s.Cleared n') : n = n' := by
  -- while a device is acquired it has no claim, so that the two owners are of one kind
  have hnocl : ∀ {m hash id record}, s.acquired hash = some m →
      s.claims.lookup id = some record → record.hash ≠ hash := by
    intro m hash id record hacq hclaim
    obtain ⟨t, ht⟩ := ne_none_iff_exists'.1 (h.acquired hacq)
    exact h.hash_ne_of_acquirer ht hclaim
  rcases h.owned hn hopen with hacq | ⟨id, record, hclaim, rfl, hrec⟩
  · rcases h.owned hn' hopen' with hacq' | ⟨id', record', hclaim', -, hrec'⟩
    · rw [hhash, hacq'] at hacq
      exact (Option.some.inj hacq).symm
    · exact absurd (hrec'.trans hhash.symm) (hnocl hacq hclaim')
  · rcases h.owned hn' hopen' with hacq' | ⟨id', record', hclaim', rfl, hrec'⟩
    · exact absurd (hrec.trans hhash) (hnocl hacq' hclaim)
    have hid : some id = some id' := by
      rw [← h.live hclaim, ← h.live hclaim', hrec, hrec', hhash]
    cases hid
    rw [hclaim] at hclaim'
    rw [Option.some.inj hclaim']

theorem Claims.Sound.exclusive {busy : Nat → Prop}
    (hbusy : ∀ t hash, s.acquirer hash = some t → busy t) : s.Exclusive busy where
  unique _ _ _ _ := h.unique
  live _ _ := h.live
  index hash id hdev := by
    by_cases hid : id = ""
    · subst hid
      obtain ⟨t, ht⟩ := ne_none_iff_exists'.1 ((h.acquiring hash).1 hdev)
      exact .inr ⟨rfl, t, ht, hbusy t hash ht⟩
    · exact .inl (h.index hdev hid)
  claimable hash hnone n handle hn hhash := by
    by_contra hopen
    exact h.taken hn hopen (hhash ▸ hnone)

end

/-- **USB claims are exclusive.** However the calls of `Claim`, `Release` and `CleanupSession`
interleave, and whatever fails in them: one handle at most of each device has not been released and
audited; the tables agree, an entry without a claim being an acquisition of a running call; and a
device that can be claimed has no handle left that was not released and audited. -/
theorem claims_exclusive (sha256 : Transfer.Bytes → Transfer.Digest)
    {g : Config ClaimOp ClaimOp.Res Claims}
    (h : ((claimPool sha256).machine (· = newClaimManager)).Reachable (Machine.free _ _) g) :
    g.state.Exclusive fun t => g.thread t ≠ none := by
  have hholds := Contract.holds_of_reachable (claims_kept sha256) (fun _ _ _ _ _ _ _ => trivial) h
  refine Claims.Sound.exclusive hholds.inv fun t hash ht hidle => ?_
  have hfree := hholds.runs t
  rw [hidle] at hfree
  exact hfree hash ht

def rivalClaims : List (Move ClaimChoice ClaimCall) :=
  [.start 0 (.claim "exporter-1" 7 stickEnrollment),
    .start 1 (.claim "exporter-2" 7 stickEnrollment),
    .op 0 { devices := some [stickDevice] }, .op 1 { devices := some [stickDevice] },
    .op 0 {}, .op 1 {}, .op 0 { id := some "usbclaim-1" }, .op 1 { id := some "usbclaim-2" },
    .op 1 {}, .op 0 {}, .op 1 { gives := true }, .op 1 { ended := true },
    .op 1 { fails := true }, .op 1 {}]

/-- A claim that was cancelled and could not be given back keeps its device from the other
session. -/
theorem claims_exclusive_rivals :
    ∃ g, ((claimPool fun _ => Vector.replicate 32 0).machine (· = newClaimManager)).Reachable
        (Machine.free _ _) g ∧
      (g.state.claims.lookup "usbclaim-2").isSome ∧ (g.thread 0).isSome ∧
      g.state.Exclusive fun t => g.thread t ≠ none := by
  have hreach : ((claimPool fun _ => .replicate 32 0).machine
      (· = newClaimManager)).Reachable (Machine.free _ _) _ :=
    Machine.reachable_play_free rivalClaims (s := ⟨newClaimManager, fun _ => none⟩)
      ⟨rfl, fun _ => rfl⟩
  exact ⟨_, hreach, by decide +kernel, by decide +kernel, claims_exclusive _ hreach⟩

end PrivateVm.Usb
