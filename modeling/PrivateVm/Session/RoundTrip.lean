import PrivateVm.Session.Codec

set_option autoImplicit false

/-! # Writing a session record and reading it back

An accepted snapshot holds only short plain texts, so that its record needs no escapes and
never reaches the size limit. What comes back is the snapshot with every time written and read once
(`Snapshot.reread`).
-/

namespace PrivateVm.Session

open Timestamp Checked Decimal Json Option
open List hiding lex

/-! ## The texts of an accepted snapshot -/

/-- A text that needs no escape, with a bound on its length. -/
def Short (n : Nat) (s : String) : Prop := SafeText s ∧ s.toList.length ≤ n

instance (n : Nat) (s : String) : Decidable (Short n s) := inferInstanceAs (Decidable (_ ∧ _))

structure Event.Plain (e : Event) : Prop where
  code : Short 23 e.code
  phase : Short 15 e.phase.text
  workflowState : Short 29 e.workflowState
  message : Short 37 e.message

variable {p : Phase} {d : Cursor} {l : List Event} {sn' : Snapshot}

theorem phase_short (h : validPhase p = true) : Short 15 p.text := by
  cases p with
  | other => cases h
  | _ => decide

theorem role_short {r} (h : validateRole r = .ok ()) : Short 11 r.text := by
  cases r with
  | other => cases h
  | _ => decide

theorem lifecycleEvents_short {code message} (h : lifecycleEvents p = some (code, message)) :
    Short 23 code ∧ Short 37 message := by
  cases p <;> simp only [lifecycleEvents] at h <;>
    obtain ⟨rfl, rfl⟩ := h <;> decide

theorem workflowTransitions_short (role : Role) :
    ∀ row ∈ workflowTransitions role, ∀ target ∈ row.2, Short 29 target := by
  cases role with
  | other => intro row hrow; cases hrow
  | _ => decide +kernel

theorem WorkflowTable.mem_of_allows {table : WorkflowTable} {start target : String}
    (h : table.allows start target = true) : ∃ row ∈ table, target ∈ row.2 := by
  unfold WorkflowTable.allows at h
  split at h
  · next targets hl =>
      obtain ⟨l₁, l₂, rfl, -⟩ := lookup_eq_some_iff.1 hl
      exact ⟨(start, targets), by simp, by simpa using h⟩
  · cases h

variable {role : Role} {c : Cursor} {e : Event} {sn : Snapshot} {n depth : Nat} {s name : String}
  {t : Time} {v : Value} {es : List Event} {vs : List Value} {data : Bytes}

theorem Cursor.Follows.plain (h : c.Follows role e) (hph : Session.validPhase c.phase = true)
    (hst : Short 29 c.workflowState) : e.Plain := by
  have hp := phase_short (h.validPhase hph)
  cases h with
  | workflow code message phase open_ allowed =>
    obtain ⟨row, hrow, ht⟩ := WorkflowTable.mem_of_allows allowed
    exact ⟨by rw [code]; decide, hp, workflowTransitions_short role row hrow _ ht,
      by rw [message]; decide⟩
  | lifecycle event state =>
    obtain ⟨hc, hm⟩ := lifecycleEvents_short event
    exact ⟨hc, hp, by rwa [state], hm⟩

theorem Continues.plain (h : Continues role c l d) (hph : Session.validPhase c.phase = true)
    (hst : Short 29 c.workflowState) : Short 29 d.workflowState ∧ ∀ e ∈ l, e.Plain := by
  induction h with
  | done => exact ⟨hst, by simp⟩
  | @snoc d l e init _ _ follows ih =>
    have he := follows.plain (init.validPhase hph) ih.1
    exact ⟨he.workflowState, forall_mem_append.2 ⟨ih.2, forall_mem_singleton.2 he⟩⟩

/-- What the texts and counters of a snapshot are bounded by. -/
structure Snapshot.Plain (sn : Snapshot) : Prop where
  id : Short 36 sn.id
  role : Short 11 sn.role.text
  phase : Short 15 sn.phase.text
  workflowState : Short 29 sn.workflowState
  sequence : sn.sequence ≤ maxSessionEvents
  events : ∀ e ∈ sn.events, e.Plain ∧ e.sequence ≤ maxSessionEvents

theorem hex_safe {c} (h : Hex.isDigit c = true) : SafeChar c := by
  simp only [Hex.isDigit, Hex.isLower, Bool.or_eq_true, Bool.and_eq_true, decide_eq_true_eq] at h
  refine ⟨by omega, by omega, ?_⟩
  simp
  omega

theorem id_short {id} (h : validateID id = .ok ()) : Short 36 id := by
  have h : sessionIDPattern id = true := by simpa [validateID] using h
  simp only [sessionIDPattern, Bool.and_eq_true, beq_iff_eq, List.all_eq_true] at h
  obtain ⟨⟨htake, hlen⟩, hall⟩ := h
  have hspl := take_append_drop 4 id.toList
  rw [htake] at hspl
  constructor
  · rw [SafeText, ← hspl, forall_mem_append]
    exact ⟨by simp [SafeChar], fun c hc => hex_safe (hall c hc)⟩
  · rw [← hspl, length_append, hlen]
    rfl

/-- Along a journal the sequence numbers stay within the number of events. -/
theorem Continues.sequence_le (h : Continues role c l d) :
    ∀ e ∈ l, e.sequence ≤ c.sequence + l.length := by
  induction h with
  | done => simp
  | @snoc d l e init hs _ _ ih =>
    have hd := init.sequence_eq
    rw [forall_mem_append, forall_mem_singleton, length_append, length_singleton]
    refine ⟨fun e' he' => ?_, by omega⟩
    have := ih e' he'
    omega

theorem createdEvent_plain (t : Time) : (createdEvent t).Plain :=
  ⟨show Short 23 "SESSION_CREATED" by decide, show Short 15 "CREATED" by decide,
    show Short 29 "" by decide, show Short 37 "Session record created." by decide⟩

theorem Snapshot.Accepted.plain (h : sn.Accepted) : sn.Plain := by
  obtain ⟨t, rest, -, hev, hc⟩ := h.journal
  have hbudg := h.budget
  rw [hev, length_cons] at hbudg
  have hs := hc.sequence_eq
  obtain ⟨hst, hplain⟩ := hc.plain rfl (show Short 29 "" by decide)
  refine ⟨id_short h.id, role_short h.role, phase_short (hc.validPhase rfl), hst, ?_, ?_⟩
  · change sn.sequence = 1 + _ at hs
    omega
  rw [hev]
  rintro e (_ | ⟨_, he⟩)
  · exact ⟨createdEvent_plain t, show 1 ≤ maxSessionEvents by decide⟩
  · have := hc.sequence_le e he
    change e.sequence ≤ 1 + _ at this
    exact ⟨hplain e he, by omega⟩

/-! ## The document of an accepted snapshot -/

/-- What is written needs no escapes, passes the walk at its depth, and is at most so long. -/
structure Fits (depth n : Nat) (v : Value) : Prop where
  clean : v.Clean
  passes : Passes depth v
  size : v.size ≤ n

def membersSize (fs : List (Bytes × Value)) : Nat := (fs.map fun f => f.1.length + f.2.size + 4).sum

/-- Members of an object that fit, with the names they may have. -/
structure Members (depth : Nat) (names : List String) (n : Nat) (fs : List (Bytes × Value)) :
    Prop where
  names : (keyNames fs).Sublist names
  clean : ∀ f ∈ fs, (∀ b ∈ f.1, PlainByte b) ∧ f.2.Clean
  passes : ∀ f ∈ fs, Passes depth f.2
  size : membersSize fs ≤ n

section

variable {k m : Nat} {names : List String} {fs : List (Bytes × Value)}

theorem Members.nil : Members depth [] 0 [] := ⟨.slnil, by simp, by simp, by simp [membersSize]⟩

theorem Members.cons (hname : SafeText name) (hv : Fits depth m v) (h : Members depth names n fs) :
    Members depth (name :: names) (name.toList.length + m + 4 + n) (member name v :: fs) := by
  refine ⟨?_, forall_mem_cons.2 ⟨⟨quote_plain hname, hv.clean⟩, h.clean⟩,
    forall_mem_cons.2 ⟨hv.passes, h.passes⟩, ?_⟩
  · simpa [keyNames, member, unquote_quote hname] using h.names
  · have hsize := hv.size
    have hrest := h.size
    simp only [membersSize, map_cons, sum_cons, member, quote_length hname] at hrest ⊢
    omega

variable (hd : depth ≤ 32)

include hd

theorem fits_textValue (h : Short n s) : Fits depth (n + 2) (textValue s) := by
  refine ⟨?_, (passes_scalar rfl rfl).2 hd, ?_⟩
  · simpa [textValue, Value.Clean, Value.toks, Tok.Clean] using quote_plain h.1
  · have := h.2
    simp only [textValue, Value.size, Value.toks, render_cons, render_nil, Tok.render,
      length_append, length_cons, length_nil, quote_length h.1]
    omega

theorem fits_natValue (hk : 0 < k) (h : n < 10 ^ k) : Fits depth k (natValue n) := by
  refine ⟨?_, (passes_scalar rfl rfl).2 hd, ?_⟩
  · simp [natValue, Value.Clean, Value.toks, Tok.Clean]
  · simpa [natValue, Value.size, Value.toks, Tok.render] using decimal_length_le hk h

theorem fits_timeValue (h : timeValue t = some v) : Fits depth 37 v := by
  obtain ⟨b, hb, rfl⟩ := map_eq_some_iff.1 h
  refine ⟨?_, (passes_scalar rfl rfl).2 hd, ?_⟩
  · simp only [Value.Clean, Value.toks, mem_singleton, forall_eq]
    intro c hc
    obtain ⟨h₁, h₂, h₃⟩ := format_plain hb c hc
    refine ⟨h₁, h₃, ?_⟩
    rintro rfl
    exact absurd h₂ (by decide)
  · have := format_length_le hb
    simp only [Value.size, Value.toks, render_cons, render_nil, Tok.render, length_append,
      length_cons, length_nil]
    omega

theorem fits_arr (h : ∀ v ∈ vs, Fits (depth + 1) n v) (hlen : vs.length ≤ m) :
    Fits depth (m * (n + 1) + 2) (.arr vs) := by
  refine ⟨Value.clean_arr fun v hv => (h v hv).clean,
    passes_arr.2 ⟨hd, fun v hv => (h v hv).passes⟩, (Value.size_arr_le vs).trans ?_⟩
  have hsum := sum_le_card_nsmul (vs.map fun v => v.size + 1) (n + 1)
    (forall_mem_map.2 fun v hv => Nat.add_le_add_right (h v hv).size 1)
  rw [length_map, smul_eq_mul] at hsum
  exact Nat.add_le_add_right (hsum.trans (Nat.mul_le_mul_right _ hlen)) 2

theorem Members.omitEmpty (hname : SafeText name) (hs : Short m s) (h : Members depth names n fs) :
    Members depth (name :: names) (name.toList.length + (m + 2) + 4 + n)
      (omitEmpty name s ++ fs) := by
  unfold Session.omitEmpty
  split
  · exact ⟨h.names.cons name, h.clean, h.passes, h.size.trans (Nat.le_add_left _ _)⟩
  · exact .cons hname (fits_textValue hd hs) h

theorem Members.fits (hnames : names.Nodup) (hm : n + 2 ≤ m)
    (h : Members (depth + 1) names n fs) : Fits depth m (.obj fs) where
  clean := Value.clean_obj h.clean
  passes := passes_obj.2 ⟨hd, h.names.nodup hnames, h.passes⟩
  size := (Value.size_obj_le fs).trans ((Nat.add_le_add_right h.size 2).trans hm)

end

theorem fits_eventValue (he : e.Plain) (hs : e.sequence ≤ maxSessionEvents)
    (hv : eventValue e = some v) : Fits 2 221 v := by
  obtain ⟨time, ht, rfl⟩ := map_eq_some_iff.1 hv
  have hd : 3 ≤ 32 := by decide
  have hseq : e.sequence < 10 ^ 4 := hs.trans_lt (by decide)
  refine Members.fits (by decide) (by decide) (by decide) <|
    .cons ?_ (fits_natValue hd (by decide) hseq) <|
    .cons ?_ (fits_textValue hd he.code) <|
    .cons ?_ (fits_textValue hd he.phase) <|
    .omitEmpty hd ?_ he.workflowState <|
    .cons ?_ (fits_textValue hd he.message) <|
    .cons ?_ (fits_timeValue hd ht) .nil
  all_goals decide

theorem snapshotValue_eq_some (h : snapshotValue sn = some v) :
    ∃ createdAt updatedAt events, timeValue sn.createdAt = some createdAt ∧
      timeValue sn.updatedAt = some updatedAt ∧ sn.events.mapM eventValue = some events ∧
      v = .obj (snapshotMembers sn createdAt updatedAt events) := by
  simp only [snapshotValue, bind_eq_bind, bind_eq_some_iff] at h
  obtain ⟨createdAt, hc, updatedAt, hu, events, he, h⟩ := h
  exact ⟨createdAt, updatedAt, events, hc, hu, he, (Option.some.inj h).symm⟩

theorem mapM_eventValue (h : es.mapM eventValue = some vs) :
    List.Forall₂ (fun e v => eventValue e = some v) es vs := by
  induction es generalizing vs with
  | nil =>
    cases h
    exact .nil
  | cons e es ih =>
    simp only [List.mapM_cons, bind_eq_bind, bind_eq_some_iff] at h
    obtain ⟨v, hv, vs', hvs, h⟩ := h
    cases h
    exact .cons hv (ih hvs)

theorem intValue_one : intValue 1 = natValue 1 := rfl

/-- What holds of the value of each event holds of all values written. -/
theorem forall_eventValues {P : Value → Prop}
    (h : List.Forall₂ (fun e v => eventValue e = some v) es vs)
    (hP : ∀ e ∈ es, ∀ v, eventValue e = some v → P v) : ∀ v ∈ vs, P v := by
  induction h with
  | nil => simp
  | cons hv _ ih =>
    rw [forall_mem_cons] at hP ⊢
    exact ⟨hP.1 _ hv, ih hP.2⟩

/-- A plain snapshot never reaches the size limit. -/
theorem fits_snapshotValue (hsn : sn.Accepted) (h : snapshotValue sn = some v) :
    Fits 0 maxMetadataSize v := by
  obtain ⟨createdAt, updatedAt, events, hc, hu, he, rfl⟩ := snapshotValue_eq_some h
  have hplain := hsn.plain
  have hmap := mapM_eventValue he
  have hd : 1 ≤ 32 := by decide
  have hvers : Fits 1 1 (intValue sn.schemaVersion) := by
    rw [hsn.schemaVersion]
    exact fits_natValue hd (by decide) (by decide)
  have huid : sn.ownerUID.toNat < 10 ^ 10 := sn.ownerUID.toNat_lt.trans (by decide)
  have hseq : sn.sequence < 10 ^ 4 := hplain.sequence.trans_lt (by decide)
  have hevs : Fits 1 (4096 * 222 + 2) (.arr events) := by
    refine fits_arr hd (forall_eventValues hmap fun e he v => ?_)
      (hmap.length_eq.ge.trans hsn.budget)
    exact fits_eventValue (hplain.events e he).1 (hplain.events e he).2
  refine Members.fits (by decide) (by decide) (by decide) <|
    .cons ?_ hvers <|
    .cons ?_ (fits_textValue hd hplain.id) <|
    .cons ?_ (fits_natValue hd (by decide) huid) <|
    .cons ?_ (fits_textValue hd hplain.role) <|
    .cons ?_ (fits_textValue hd hplain.phase) <|
    .omitEmpty hd ?_ hplain.workflowState <|
    .cons ?_ (fits_natValue hd (by decide) hseq) <|
    .cons ?_ (fits_timeValue hd hc) <|
    .cons ?_ (fits_timeValue hd hu) <|
    .cons ?_ hevs .nil
  all_goals decide

/-- **What can be written**: an accepted snapshot all of whose times have a text. -/
theorem encodeSnapshot_eq_ok : encodeSnapshot sn = .ok data ↔
      sn.Accepted ∧ ∃ v, snapshotValue sn = some v ∧ data = render v.toks := by
  simp only [encodeSnapshot, bind_eq_ok, ofOption_eq_ok, failIf_eq_ok, pure_eq_ok]
  constructor
  · rintro ⟨_, h, v, hv, -, -, rfl⟩
    exact ⟨validateSnapshot_eq_ok.1 h, v, hv, rfl⟩
  · rintro ⟨h, v, hv, rfl⟩
    have hsize := (fits_snapshotValue h hv).size
    exact ⟨(), validateSnapshot_eq_ok.2 h, v, hv, (), by unfold Value.size at hsize; omega, rfl⟩

/-! ## Reading the document back -/

/-- An event after its time was written and read once. -/
def Event.reread (e : Event) : Option Event :=
  (Timestamp.reread e.time).map fun t => { e with time := t }

def Snapshot.reread (sn : Snapshot) : Option Snapshot := do
  let createdAt ← Timestamp.reread sn.createdAt
  let updatedAt ← Timestamp.reread sn.updatedAt
  let events ← sn.events.mapM Event.reread
  some { sn with createdAt, updatedAt, events }

theorem readText_textValue (h : SafeText s) (old : String) :
    readInto readText (textValue s) old = some s := by
  simp [readInto, textValue, readText, unquote_quote h]

theorem readUint_natValue {bits : Nat} (h : n < 2 ^ bits) (old : Nat) :
    readInto (readUint bits) (natValue n) old = some n := by
  simp [readInto, natValue, readUint, parseUint, digitsValue?_decimal, h]

theorem readTime_timeValue (h : timeValue t = some v) (old : Time) :
    readInto readTime v old = Timestamp.reread t := by
  obtain ⟨b, hb, rfl⟩ := map_eq_some_iff.1 h
  simp [readInto, readTime, Timestamp.reread, hb]

/-- Reading the member that may be left out, into a record where it is still empty. -/
theorem fillStruct_omitEmpty {F σ : Type} {T} {assign : F → Value → σ → Option σ} {f : F} {a b : σ}
    (h : (name, f) ∈ T.tags) (hassign : assign f (textValue s) a = some b) (hemp : s = "" → b = a)
    (fs : List (Bytes × Value)) :
    fillStruct T assign (omitEmpty name s ++ fs) a = fillStruct T assign fs b := by
  unfold omitEmpty
  split
  · next hs => rw [hemp hs, nil_append]
  · rw [cons_append, nil_append, member, fillStruct_member T assign h, hassign,
      bind_some]

theorem decodeEvent_eventValue (he : e.Plain) (hseq : e.sequence ≤ maxSessionEvents)
    (hv : eventValue e = some v) : decodeEvent v zeroEvent = e.reread := by
  obtain ⟨time, ht, rfl⟩ := map_eq_some_iff.1 hv
  have hseq : e.sequence < 2 ^ 64 := hseq.trans_lt (by decide)
  simp only [decodeEvent, eventMembers, cons_append, nil_append, member]
  rw [fillStruct_member _ _ (f := .sequence) (by decide)]
  simp only [assignEvent, readUint_natValue hseq, map_some, bind_some]
  rw [fillStruct_member _ _ (f := .code) (by decide)]
  simp only [assignEvent, readText_textValue he.code.1, map_some, bind_some]
  rw [fillStruct_member _ _ (f := .phase) (by decide)]
  simp only [assignEvent, readText_textValue he.phase.1, map_some, bind_some,
    Phase.ofText_text]
  rw [fillStruct_omitEmpty (f := .workflowState) (by decide)
    (by simp only [assignEvent, readText_textValue he.workflowState.1]; rfl)
    (by intro hs; simp [hs, zeroEvent])]
  rw [fillStruct_member _ _ (f := .message) (by decide)]
  simp only [assignEvent, readText_textValue he.message.1, map_some, bind_some]
  rw [fillStruct_member _ _ (f := .time) (by decide)]
  simp only [assignEvent, readTime_timeValue ht, Event.reread]
  cases Timestamp.reread e.time <;> rfl

theorem decodeEvents_eventValues (h : List.Forall₂ (fun e v => eventValue e = some v) es vs)
    (hes : ∀ e ∈ es, e.Plain ∧ e.sequence ≤ maxSessionEvents) :
    decodeEvents vs [] = (es.mapM Event.reread).map fun es => (es, []) := by
  induction h with
  | nil => rfl
  | cons hv _ ih =>
    rw [forall_mem_cons] at hes
    simp only [decodeEvents, List.headD_nil, tail_nil, ih hes.2,
      decodeEvent_eventValue hes.1.1 hes.1.2 hv]
    simp
    cases List.mapM Event.reread _ <;> rfl

/-- **What is read back** from the document of a plain snapshot. -/
theorem decodeSnapshotValue_snapshotValue (hsn : sn.Plain) (hv1 : sn.schemaVersion = 1)
    (hne : sn.events ≠ []) (h : snapshotValue sn = some v) : decodeSnapshotValue v = sn.reread := by
  obtain ⟨createdAt, updatedAt, events, hc, hu, he, rfl⟩ := snapshotValue_eq_some h
  have hseq : sn.sequence < 2 ^ 64 := hsn.sequence.trans_lt (by decide)
  have hvers : readInto readInt (natValue 1) zeroSnapshot.schemaVersion = some 1 := by decide
  have hUID : ∀ old, readInto (readUint 32) (natValue sn.ownerUID.toNat) old =
      some sn.ownerUID.toNat := readUint_natValue sn.ownerUID.toNat_lt
  have hmap := mapM_eventValue he
  have hevs := decodeEvents_eventValues hmap hsn.events
  simp only [decodeSnapshotValue, snapshotMembers, cons_append, nil_append, member, hv1,
    intValue_one]
  rw [fillStruct_member _ _ (f := .schemaVersion) (by decide)]
  simp only [assignSnapshot, hvers, map_some, bind_some]
  rw [fillStruct_member _ _ (f := .id) (by decide)]
  simp only [assignSnapshot, readText_textValue hsn.id.1, map_some, bind_some]
  rw [fillStruct_member _ _ (f := .ownerUID) (by decide)]
  simp only [assignSnapshot, hUID, map_some, bind_some, UInt32.ofNat_toNat]
  rw [fillStruct_member _ _ (f := .role) (by decide)]
  simp only [assignSnapshot, readText_textValue hsn.role.1, map_some, bind_some,
    Role.ofText_text]
  rw [fillStruct_member _ _ (f := .phase) (by decide)]
  simp only [assignSnapshot, readText_textValue hsn.phase.1, map_some, bind_some,
    Phase.ofText_text]
  rw [fillStruct_omitEmpty (f := .workflowState)
    (b := ⟨{ sn with sequence := 0, createdAt := zeroTime, updatedAt := zeroTime, events := [] },
      []⟩) (by decide)
    (by simp only [assignSnapshot, readText_textValue hsn.workflowState.1, hv1]; rfl)
    (by intro hs; simp only [hs, hv1, zeroSnapshot])]
  rw [fillStruct_member _ _ (f := .sequence) (by decide)]
  simp only [assignSnapshot, readUint_natValue hseq, map_some, bind_some]
  rw [fillStruct_member _ _ (f := .createdAt) (by decide)]
  simp only [assignSnapshot, readTime_timeValue hc, Snapshot.reread]
  cases Timestamp.reread sn.createdAt with
  | none => rfl
  | some =>
    simp
    rw [fillStruct_member _ _ (f := .updatedAt) (by decide)]
    simp only [assignSnapshot, readTime_timeValue hu]
    cases Timestamp.reread sn.updatedAt with
    | none => rfl
    | some =>
      simp
      rw [fillStruct_member _ _ (f := .events) (by decide)]
      cases events with
      | nil => exact absurd (forall₂_nil_right_iff.1 hmap) hne
      | cons item items =>
        simp only [assignSnapshot, assignEvents, append_nil, hevs]
        cases sn.events.mapM Event.reread <;> rfl

theorem mapM_reread_eq_self : es.mapM Event.reread = some es ↔ ∀ e ∈ es, Representable e.time := by
  induction es with
  | nil => simp
  | cons e es ih =>
    rw [forall_mem_cons, ← ih, ← reread_eq_self_iff]
    simp only [List.mapM_cons, bind_eq_bind, bind_eq_some_iff, Option.pure_def,
      Option.some.injEq, List.cons.injEq]
    constructor
    · rintro ⟨e', he', es', hes, rfl, rfl⟩
      obtain ⟨t, ht, he'⟩ := map_eq_some_iff.1 he'
      exact ⟨ht.trans (congrArg (fun e => some e.time) he'), hes⟩
    · rintro ⟨ht, hes⟩
      exact ⟨e, by rw [Event.reread, ht]; rfl, es, hes, rfl, rfl⟩

/-- The times of a snapshot all survive being written and read. -/
structure Snapshot.TimesRepresentable (sn : Snapshot) : Prop where
  createdAt : Representable sn.createdAt
  updatedAt : Representable sn.updatedAt
  events : ∀ e ∈ sn.events, Representable e.time

theorem Snapshot.reread_eq_self : sn.reread = some sn ↔ sn.TimesRepresentable := by
  simp only [Snapshot.reread, bind_eq_bind, bind_eq_some_iff, Option.some.injEq]
  constructor
  · rintro ⟨c, hc, u, hu, es, hes, h⟩
    obtain rfl : c = sn.createdAt := congrArg Snapshot.createdAt h
    obtain rfl : u = sn.updatedAt := congrArg Snapshot.updatedAt h
    obtain rfl : es = sn.events := congrArg Snapshot.events h
    exact ⟨reread_eq_self_iff.1 hc, reread_eq_self_iff.1 hu, mapM_reread_eq_self.1 hes⟩
  · rintro ⟨hc, hu, hes⟩
    exact ⟨_, reread_eq_self_iff.2 hc, _, reread_eq_self_iff.2 hu,
      _, mapM_reread_eq_self.2 hes, rfl⟩

/-- The times of a snapshot all have a text. -/
structure Snapshot.TimesWritable (sn : Snapshot) : Prop where
  createdAt : (format sn.createdAt).isSome
  updatedAt : (format sn.updatedAt).isSome
  events : ∀ e ∈ sn.events, (format e.time).isSome

theorem isSome_format (h : Representable t) : (format t).isSome := by
  obtain ⟨b, hb, -⟩ := parse_format h
  rw [hb]
  rfl

theorem Snapshot.TimesRepresentable.writable (h : sn.TimesRepresentable) : sn.TimesWritable :=
  ⟨isSome_format h.createdAt, isSome_format h.updatedAt, fun e he => isSome_format (h.events e he)⟩

theorem mapM_eventValue_isSome :
    (es.mapM eventValue).isSome ↔ ∀ e ∈ es, (format e.time).isSome := by
  induction es with
  | nil => simp
  | cons e es ih =>
    rw [forall_mem_cons, ← ih, List.mapM_cons]
    cases hf : format e.time <;> cases es.mapM eventValue <;> simp [eventValue, timeValue, hf]

theorem snapshotValue_isSome : (snapshotValue sn).isSome ↔ sn.TimesWritable := by
  constructor
  · intro h
    obtain ⟨v, hv⟩ := isSome_iff_exists.1 h
    obtain ⟨c, u, es, hc, hu, hes, -⟩ := snapshotValue_eq_some hv
    obtain ⟨bc, hbc, -⟩ := map_eq_some_iff.1 hc
    obtain ⟨bu, hbu, -⟩ := map_eq_some_iff.1 hu
    exact ⟨by rw [hbc]; rfl, by rw [hbu]; rfl, mapM_eventValue_isSome.1 (by rw [hes]; rfl)⟩
  · rintro ⟨hc, hu, hes⟩
    obtain ⟨bc, hbc⟩ := isSome_iff_exists.1 hc
    obtain ⟨bu, hbu⟩ := isSome_iff_exists.1 hu
    obtain ⟨vs, hvs⟩ := isSome_iff_exists.1 (mapM_eventValue_isSome.2 hes)
    simp [snapshotValue, timeValue, hbc, hbu, hvs]

/-- **What can be written**, in terms of the snapshot alone. -/
theorem encodeSnapshot_isOk :
    (∃ data, encodeSnapshot sn = .ok data) ↔ sn.Accepted ∧ sn.TimesWritable := by
  rw [← snapshotValue_isSome, Option.isSome_iff_exists]
  constructor
  · rintro ⟨data, h⟩
    obtain ⟨ha, v, hv, -⟩ := encodeSnapshot_eq_ok.1 h
    exact ⟨ha, v, hv⟩
  · rintro ⟨ha, v, hv⟩
    exact ⟨_, encodeSnapshot_eq_ok.2 ⟨ha, v, hv, rfl⟩⟩

/-! ## The round trip -/

theorem decodeSnapshot_eq_ok {expectedID} : decodeSnapshot data expectedID = .ok sn ↔
      ∃ v, lex data = some v.toks ∧ Passes 0 v ∧ decodeSnapshotValue v = some sn ∧
        sn.Accepted ∧ sn.id = expectedID := by
  simp only [decodeSnapshot, bind_eq_ok, ofOption_eq_ok, failIf_eq_ok, pure_eq_ok,
    bind_eq_some_iff, parse_eq_some_iff]
  constructor
  · rintro ⟨toks, hl, _, hd, sn', ⟨v, rfl, hv⟩, _, ha, -, hid, rfl⟩
    have := (rejectDuplicateJSONFields_eq_ok v).1 hd
    exact ⟨v, hl, by simpa [Passes] using this, hv, validateSnapshot_eq_ok.1 ha, by simpa using hid⟩
  · rintro ⟨v, hl, hp, hv, ha, rfl⟩
    refine ⟨v.toks, hl, (), (rejectDuplicateJSONFields_eq_ok v).2 (by simpa [Passes] using hp), sn,
      ⟨v, rfl, hv⟩, (), validateSnapshot_eq_ok.2 ha, (), by simp, rfl⟩

theorem Snapshot.reread_id (h : sn.reread = some sn') : sn'.id = sn.id := by
  simp only [Snapshot.reread, bind_eq_bind, bind_eq_some_iff, Option.some.injEq] at h
  obtain ⟨c, -, u, -, es, -, rfl⟩ := h
  rfl

/-- **What comes back from a record**: the snapshot with its times written and read once, if
that is still accepted. -/
theorem decodeSnapshot_encodeSnapshot (h : encodeSnapshot sn = .ok data) :
    decodeSnapshot data sn.id = .ok sn' ↔ sn.reread = some sn' ∧ sn'.Accepted := by
  obtain ⟨ha, v, hv, rfl⟩ := encodeSnapshot_eq_ok.1 h
  have hfits := fits_snapshotValue ha hv
  have hlex := lex_render hfits.clean
  have hne : sn.events ≠ [] := by
    obtain ⟨t, rest, -, hev, -⟩ := ha.journal
    simp [hev]
  have hread := decodeSnapshotValue_snapshotValue ha.plain ha.schemaVersion hne hv
  rw [decodeSnapshot_eq_ok]
  constructor
  · rintro ⟨w, hw, -, hd, ha', -⟩
    obtain rfl : v = w := Value.toks_injective (Option.some.inj (hlex.symm.trans hw))
    exact ⟨hread.symm.trans hd, ha'⟩
  · rintro ⟨hr, ha'⟩
    exact ⟨v, hlex, hfits.passes, hread.trans hr, ha', Snapshot.reread_id hr⟩

/-- **The round trip**: an accepted snapshot comes back from its record exactly when its times
are representable. -/
theorem roundTrip_iff (h : sn.Accepted) :
    (∃ data, encodeSnapshot sn = .ok data ∧ decodeSnapshot data sn.id = .ok sn) ↔
      sn.TimesRepresentable := by
  constructor
  · rintro ⟨data, he, hd⟩
    exact Snapshot.reread_eq_self.1 ((decodeSnapshot_encodeSnapshot he).1 hd).1
  · intro ht
    obtain ⟨data, he⟩ := encodeSnapshot_isOk.2 ⟨h, ht.writable⟩
    exact ⟨data, he, (decodeSnapshot_encodeSnapshot he).2 ⟨Snapshot.reread_eq_self.2 ht, h⟩⟩

end PrivateVm.Session
