import PrivateVm.Session.Exact

set_option autoImplicit false

/-! # How strict the decoder is

The walk compares keys as they are spelled, the struct decoder up to case. A record can
therefore name one field twice, in two spellings, and the later one wins. This module says
exactly which accepted records repeat a field, and which accepted snapshots come back from
their own record.
-/

namespace PrivateVm.Session

open Timestamp Checked Decimal Json

/-- Two keys denote the same field of a record. -/
def SameField (k k' : String) : Prop :=
  (∃ f, snapshotTags.field k = some f ∧ snapshotTags.field k' = some f) ∨
    ∃ f, eventTags.field k = some f ∧ eventTags.field k' = some f

variable {k k' : String} {e e' : Event} {vs : List Value} {d d' : Draft} {sn : Snapshot}

theorem SameField.symm (h : SameField k k') : SameField k' k := by
  rcases h with ⟨f, hf, hf'⟩ | ⟨f, hf, hf'⟩
  · exact .inl ⟨f, hf', hf⟩
  · exact .inr ⟨f, hf', hf⟩

/-- No object of a document has two keys for one field. -/
def NoRepeatedField (v : Value) : Prop :=
  ∀ keys ∈ v.objects, keys.Pairwise fun k k' => ¬ SameField k k'

/-- No object of a document has two different keys that are equal up to case. -/
def OneSpelling (v : Value) : Prop :=
  ∀ keys ∈ v.objects, ∀ k ∈ keys, ∀ k' ∈ keys, foldName k = foldName k' → k = k'

/-- A key that denotes a field of one of the two records. -/
def KnownKey (k : String) : Prop :=
  (∃ f, snapshotTags.field k = some f) ∨ ∃ f, eventTags.field k = some f

theorem sameField_iff (h : KnownKey k) : SameField k k' ↔ foldName k = foldName k' := by
  constructor
  · rintro (⟨f, hf, hf'⟩ | ⟨f, hf, hf'⟩)
    · exact (snapshotTags.field_eq_iff hf).1 hf'
    · exact (eventTags.field_eq_iff hf).1 hf'
  · intro hfold
    rcases h with ⟨f, hf⟩ | ⟨f, hf⟩
    · exact .inl ⟨f, hf, (snapshotTags.field_eq_iff hf).2 hfold⟩
    · exact .inr ⟨f, hf, (eventTags.field_eq_iff hf).2 hfold⟩

/-! ## Every key of a decoded document is known -/

variable {v : Value}

/-- Whatever is read as a number, a text or a time has no object in it. -/
theorem objects_of_readInto {α β : Type} {read : Value → Option α} {old : α} {f : α → β} {b : β}
    (hread : ∀ v a, read v = some a → v.objects = []) (h : (readInto read v old).map f = some b) :
    v.objects = [] := by
  obtain ⟨a, ha, -⟩ := Option.map_eq_some_iff.1 h
  unfold readInto at ha
  split at ha
  · rfl
  · exact hread v a ha

theorem objects_of_assignEvent {f} (h : assignEvent f v e = some e') : v.objects = [] := by
  cases f <;>
    · refine objects_of_readInto (fun v a hread => ?_) h
      cases v <;> first | rfl | cases hread

/-- All keys in a value are known. -/
def KnownKeys (v : Value) : Prop := ∀ keys ∈ v.objects, ∀ k ∈ keys, KnownKey k

theorem knownKeys_of_objects (h : v.objects = []) : KnownKeys v := by
  intro keys hk
  simp [h] at hk

theorem knownKeys_obj {fields} (h : ∀ kv ∈ fields, KnownKey (unquote kv.1) ∧ KnownKeys kv.2) :
    KnownKeys (.obj fields) := by
  intro keys hkeys k hk
  rw [Value.objects, List.mem_cons] at hkeys
  rcases hkeys with rfl | hkeys
  · obtain ⟨kv, hkv, rfl⟩ := List.mem_map.1 hk
    exact (h kv hkv).1
  · obtain ⟨kv, hkv, hkeys⟩ := mem_fieldsObjects.1 hkeys
    exact (h kv hkv).2 keys hkeys k hk

theorem knownKeys_of_decodeEvent (h : decodeEvent v e = some e') : KnownKeys v := by
  cases v with
  | null => exact knownKeys_of_objects rfl
  | obj =>
    refine knownKeys_obj fun kv hkv => ?_
    obtain ⟨f, s, s', hf, hs⟩ := fillStruct_known _ _ h kv hkv
    exact ⟨.inr ⟨f, hf⟩, knownKeys_of_objects (objects_of_assignEvent hs)⟩
  | _ => cases h

theorem knownKeys_of_decodeEvents {old r} (h : decodeEvents vs old = some r) :
    ∀ v ∈ vs, KnownKeys v := by
  induction vs generalizing old r with
  | nil => simp
  | cons v vs ih =>
    simp only [decodeEvents, Option.bind_eq_bind, Option.bind_eq_some_iff] at h
    obtain ⟨e, he, r', hr', -⟩ := h
    rw [List.forall_mem_cons]
    exact ⟨knownKeys_of_decodeEvent he, ih hr'⟩

theorem knownKeys_arr (h : ∀ v ∈ vs, KnownKeys v) : KnownKeys (.arr vs) := by
  intro keys hkeys
  obtain ⟨v, hv, hkeys⟩ := mem_itemsObjects.1 hkeys
  exact h v hv keys hkeys

theorem knownKeys_of_assignEvents (h : assignEvents v d = some d') : KnownKeys v := by
  unfold assignEvents at h
  split at h
  · exact knownKeys_of_objects rfl
  · exact knownKeys_of_objects rfl
  · obtain ⟨r, hr, -⟩ := Option.map_eq_some_iff.1 h
    exact knownKeys_arr (knownKeys_of_decodeEvents hr)
  · cases h

theorem knownKeys_of_assignSnapshot {f} (h : assignSnapshot f v d = some d') : KnownKeys v := by
  cases f with
  | events => exact knownKeys_of_assignEvents h
  | _ =>
    refine knownKeys_of_objects (objects_of_readInto (fun v a hread => ?_) h)
    cases v <;> first | rfl | cases hread

theorem knownKeys_of_decodeSnapshotValue (h : decodeSnapshotValue v = some sn) : KnownKeys v := by
  cases v with
  | null => exact knownKeys_of_objects rfl
  | obj =>
    obtain ⟨d, hd, -⟩ := Option.map_eq_some_iff.1 h
    refine knownKeys_obj fun kv hkv => ?_
    obtain ⟨f, s, s', hf, hs⟩ := fillStruct_known _ _ hd kv hkv
    exact ⟨.inl ⟨f, hf⟩, knownKeys_of_assignSnapshot hs⟩
  | _ => cases h

/-! ## Which accepted records repeat a field -/

/-- An accepted record repeats a field exactly when it spells one field in two ways. -/
theorem noRepeatedField_iff {data expectedID} (h : decodeSnapshot data expectedID = .ok sn)
    (hv : lex data = some v.toks) : NoRepeatedField v ↔ OneSpelling v := by
  obtain ⟨w, hw, hp, hd, -, -⟩ := decodeSnapshot_eq_ok.1 h
  obtain rfl : v = w := Value.toks_injective (Option.some.inj (hv.symm.trans hw))
  have hknown := knownKeys_of_decodeSnapshotValue hd
  constructor
  · intro hno keys hkeys k hk k' hk' hfold
    by_contra hne
    have : Std.Symm fun k k' => ¬ SameField k k' := ⟨fun _ _ h h' => h h'.symm⟩
    exact (hno keys hkeys).forall hk hk' hne
      ((sameField_iff (hknown keys hkeys k hk)).2 hfold)
  · intro hone keys hkeys
    have hnd := hp.2 keys hkeys
    refine hnd.imp_of_mem fun {k k'} hk hk' hne hsame => ?_
    exact hne (hone keys hkeys k hk k' hk' ((sameField_iff (hknown keys hkeys k hk)).1 hsame))

/-- **How strict the decoder is**: an accepted record names no field twice exactly when it
spells no key in two ways, and an accepted snapshot comes back from its own record exactly
when its times are representable. -/
theorem decodeSnapshot_strict_iff (data : Bytes) (expectedID : String) (v : Value)
    (decoded sn : Snapshot) :
    (decodeSnapshot data expectedID = .ok decoded → lex data = some v.toks →
      (NoRepeatedField v ↔ OneSpelling v)) ∧
    (validateSnapshot sn = .ok () →
      ((∃ data, encodeSnapshot sn = .ok data ∧ decodeSnapshot data sn.id = .ok sn) ↔
        sn.TimesRepresentable)) :=
  ⟨noRepeatedField_iff, fun h => roundTrip_iff (validateSnapshot_eq_ok.1 h)⟩

/-! ## A record that names its identifier twice -/

/-- The record of the sample session, with another identifier in front under the key `ID`. -/
def twoSpellings : Value :=
  let time := (timeValue (sampleTime 2026 0)).getD .null
  .obj (member "ID" (textValue "pvm-ffffffffffffffffffffffffffffffff") ::
    snapshotMembers (sampleSnapshot (sampleTime 2026 0)) time time
      [.obj (eventMembers (createdEvent (sampleTime 2026 0)) time)])

theorem twoSpellings_decoded :
    decodeSnapshot (render twoSpellings.toks) sampleID =
      .ok (sampleSnapshot (sampleTime 2026 0)) := by
  decide +kernel

theorem twoSpellings_lexed : lex (render twoSpellings.toks) = some twoSpellings.toks := by
  decide +kernel

theorem twoSpellings_repeats : ¬ NoRepeatedField twoSpellings := by
  intro h
  have hkeys := h (keyNames _) List.mem_cons_self
  exact (List.pairwise_cons.1 hkeys).1 "id" (by decide +kernel)
    (.inl ⟨.id, by decide +kernel, by decide +kernel⟩)

/-- The record above is accepted; and a snapshot whose clock is half a minute off UTC is
accepted and written, but comes back as another instant. -/
theorem decodeSnapshot_not_strict :
    (decodeSnapshot (render twoSpellings.toks) sampleID =
        .ok (sampleSnapshot (sampleTime 2026 0)) ∧
      lex (render twoSpellings.toks) = some twoSpellings.toks ∧ ¬ NoRepeatedField twoSpellings) ∧
    validateSnapshot (sampleSnapshot (sampleTime 2026 30)) = .ok () ∧
    (encodeSnapshot (sampleSnapshot (sampleTime 2026 30)) >>=
        fun data => decodeSnapshot data sampleID) = .ok (sampleSnapshot (sampleTime 2026 0)) ∧
    sampleSnapshot (sampleTime 2026 0) ≠ sampleSnapshot (sampleTime 2026 30) :=
  ⟨⟨twoSpellings_decoded, twoSpellings_lexed, twoSpellings_repeats⟩, by decide +kernel,
    by decide +kernel, by decide +kernel⟩

theorem decodeSnapshot_strict_sample :
    ¬ OneSpelling twoSpellings ∧
      ∃ data, encodeSnapshot (sampleSnapshot (sampleTime 2026 0)) = .ok data ∧
        decodeSnapshot data sampleID = .ok (sampleSnapshot (sampleTime 2026 0)) := by
  have hstr := decodeSnapshot_strict_iff (render twoSpellings.toks) sampleID twoSpellings
    (sampleSnapshot (sampleTime 2026 0)) (sampleSnapshot (sampleTime 2026 0))
  refine ⟨fun h => ?_, ?_⟩
  · exact twoSpellings_repeats ((hstr.1 twoSpellings_decoded twoSpellings_lexed).2 h)
  · exact (hstr.2 (by decide +kernel)).2
      ⟨by decide +kernel, by decide +kernel, by decide +kernel⟩

end PrivateVm.Session
