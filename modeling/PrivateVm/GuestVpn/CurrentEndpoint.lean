import PrivateVm.GuestVpn.Filter

set_option autoImplicit false

/-! # The endpoint that the kill switch admits

While the controller reports the kill switch as armed, the table of the guest should let a
packet out over the underlay only to the endpoint of the profile that was configured last, but
for neighbour discovery. A load that fails after it took effect leaves its endpoint in the table,
and a deletion that does so leaves no table (`other_endpoint_admitted`); in every run without
either the table admits the one endpoint (`endpoint_current`).
-/

namespace PrivateVm.GuestVpn

open Program Method Netip Nft List

/-! ## Tables built by loads -/

/-- The table after loads for the given endpoints, the first one first. -/
def built : List Endpoint → Option Table
  | [] => none
  | e :: es => some (guestTable ((e :: es).flatMap fun _ => inputRules)
      ((e :: es).flatMap fun e => outputRules e.address e.port))

theorem built_append (es : List Endpoint) (e : Endpoint) :
    built (es ++ [e]) = some (load e.table (built es)) := by
  cases es with
  | nil => simp [built, load, Endpoint.table, killSwitchTable]
  | cons =>
    simp [built, load, Endpoint.table, killSwitchTable, Table.add, guestTable, addChain]

theorem endpoints_built (es : List Endpoint) :
    endpoints (built es) = es.map fun e => (e.address, e.port) := by
  have hinput : inputRules.filterMap admitted = [] := rfl
  have houtp (e : Endpoint) :
      (outputRules e.address e.port).filterMap admitted = [(e.address, e.port)] := rfl
  cases es with
  | nil => rfl
  | cons =>
    simp only [endpoints, built, Option.toList, guestTable, flatMap_cons, flatMap_nil,
      append_nil, filterMap_append, filterMap_flatMap, hinput, houtp]
    rw [flatMap_eq_nil_iff.2 fun _ _ => rfl, ← map_eq_flatMap]
    rfl

def NeighborDiscovery (p : Packet) : Prop :=
  p.family = .ipv6 ∧ ∃ type : Icmpv6Type, p.payload = .icmpv6 type.number

/-- What the output hook may accept when the profile has a given endpoint. -/
def Permitted (e : Endpoint) (p : Packet) : Prop :=
  p.oifname = "lo" ∨ p.oifname = tunnelInterface ∨
    p.oifname = underlayInterface ∧
      (NeighborDiscovery p ∨ p.destination = e.address ∧ p.udpDport = some e.port)

variable {e : Endpoint} {p : Packet}

theorem permitted_of_applies {sets rule} (hrule : rule ∈ outputRules e.address e.port)
    (happ : rule.applies sets p = true) : Permitted e p := by
  rw [Rule.applies_iff] at happ
  simp only [outputRules, mem_cons, not_mem_nil, or_false] at hrule
  rcases hrule with rfl | rfl | rfl | rfl
  · left
    simpa using happ
  · right; left
    simpa using happ
  · right; right
    simp only [neighborRule, forall_mem_cons, holds_oifname, holds_icmpv6Type] at happ
    obtain ⟨hoif, -, ⟨hfam, type, -, hpay⟩, -⟩ := happ
    exact ⟨mem_singleton.1 hoif, .inl ⟨hfam, type, hpay⟩⟩
  · right; right
    simp only [endpointRule, forall_mem_cons, holds_oifname, holds_daddr,
      holds_udpDport] at happ
    obtain ⟨hoif, ⟨-, hdest⟩, hport, -⟩ := happ
    exact ⟨mem_singleton.1 hoif, .inr ⟨hdest, hport⟩⟩

/-- A packet that a table built by loads lets out is permitted for one of the endpoints. -/
theorem permitted_of_accept {es} (hes : es ≠ []) (h : verdict (built es).toList .output p = .accept)
    : ∃ e ∈ es, Permitted e p := by
  cases es with
  | nil => exact absurd rfl hes
  | cons e es =>
    have hacc := verdict_eq_accept.1 h _ (mem_singleton.2 rfl)
      ⟨"output", .filter, .output, { base := .filter }, .drop,
        (e :: es).flatMap fun e => outputRules e.address e.port⟩ (by simp [guestTable]) rfl
    obtain ⟨rule, hrule, happ, -⟩ := exists_rule_of_accept hacc
    obtain ⟨e', he', hrule⟩ := mem_flatMap.1 hrule
    exact ⟨e', he', permitted_of_applies hrule happ⟩

/-! ## What the methods of the backend do to the table -/

section

variable {e : Endpoint} {b : LinuxBackend} {sh₀ sh : FilterShell} {command : Command}

/-- The table is as it was, and nothing that was not orderly has become so. -/
structure Keeps (sh₀ sh : FilterShell) : Prop where
  table : sh.table = sh₀.table
  fine : sh.fine = true → sh₀.fine = true

theorem Keeps.refl (sh : FilterShell) : Keeps sh sh := ⟨rfl, id⟩

theorem Keeps.after (h : Keeps sh₀ sh) (hfil : ∀ table, command.filter e table = table)
    (x : Ending) : Keeps sh₀ (execFilter e command x sh).2 := by
  refine ⟨?_, fun hfine => h.fine (Bool.and_eq_true_iff.1 hfine).1⟩
  simp only [execFilter, hfil, ite_self]
  exact h.table

/-- How a method ends that does not concern the table. -/
abbrev Leaves (armed : Bool) (sh₀ : FilterShell) :
    Except Error Unit → LinuxBackend → FilterShell → Prop :=
  fun _ b sh => b.killArmed = armed ∧ Keeps sh₀ sh

theorem leaves_preserved (e : Endpoint) (armed : Bool) (sh₀ : FilterShell) :
    Preserved (execFilter e) (fun _ _ _ => true)
      fun b sh => b.killArmed = armed ∧ Keeps sh₀ sh where
  answers _ _ _ := rfl
  still {command} hstill x _ _ h := by
    refine ⟨h.1, h.2.after (fun table => ?_) x⟩
    cases command with
    | nftLoad => cases hstill ⟨false, false⟩
    | deleteTable => cases hstill ⟨true, true⟩
    | _ => rfl
  added x _ _ _ h := ⟨h.1, h.2.after (fun _ => rfl) x⟩
  deleted x _ _ _ h := by
    refine ⟨?_, h.2.after (fun _ => rfl) x⟩
    unfold Ending.settle
    split <;> exact h.1

/-- How an arming ends: with the rules loaded, with an error after which they may be loaded if
the switch was not armed, or with nothing done. -/
inductive Arming (e : Endpoint) (b : LinuxBackend) (sh : FilterShell) :
    Except Error Unit → LinuxBackend → FilterShell → Prop
  | armed {b' : LinuxBackend} {sh' : FilterShell} (harmed : b'.killArmed = true)
      (htable : sh'.table = some (load e.table sh.table))
      (hfine : sh'.fine = true → sh.fine = true ∧
        ∀ endpoint ∈ endpoints sh.table, endpoint = (e.address, e.port)) :
      Arming e b sh (.ok ()) b' sh'
  | loaded {sh' : FilterShell} (err : Error) (hnot : b.killArmed = false)
      (htable : sh'.table = some (load e.table sh.table))
      (hfine : sh'.fine = true → sh.fine = true) : Arming e b sh (.error err) b sh'
  | unchanged {sh' : FilterShell} (err : Error) (h : Keeps sh sh') :
      Arming e b sh (.error err) b sh'

theorem armKillSwitch_arming :
    Along (execFilter e) (fun _ _ _ => true) LinuxBackend.armKillSwitch (Arming e b sh) b sh := by
  refine along_get_bind ?_
  split
  · exact along_throw (.unchanged _ (.refl sh))
  rename_i hnot
  have hnot : b.killArmed = false := Bool.eq_false_iff.2 (not_or.1 hnot).1
  have hkeeps : ∀ x, Keeps sh (execFilter e .killSwitchRules x sh).2 :=
    (Keeps.refl sh).after fun _ => rfl
  refine along_ask_bind (fun x _ _ => ?_) fun x _ _ _ => .unchanged _ (hkeeps x)
  have hkeeps := hkeeps x
  generalize (execFilter e .killSwitchRules x sh).2 = sh₁ at hkeeps
  refine along_ask_bind (fun y _ hy => ?_) fun y err _ hy => ?_
  · refine along_modify (.armed rfl ?_ fun hfine => ?_)
    · simp only [execFilter, hy, Command.filter, hkeeps.table, true_or, if_true]
    obtain ⟨hfine, hord⟩ := Bool.and_eq_true_iff.1 hfine
    refine ⟨hkeeps.fine hfine, fun endpoint hep => ?_⟩
    rw [← hkeeps.table] at hep
    simp only [orderly, hy, Option.isSome_none, Bool.false_or, List.all_eq_true,
      decide_eq_true_eq] at hord
    exact hord endpoint hep
  · have hfine : (execFilter e .nftLoad y sh₁).2.fine = true → sh.fine = true :=
      fun h => hkeeps.fine (Bool.and_eq_true_iff.1 h).1
    by_cases heff : y.tookEffect = true
    · refine .loaded _ hnot ?_ hfine
      simp only [execFilter, heff, Command.filter, hkeeps.table, or_true, if_true]
    · refine .unchanged _ ⟨?_, hfine⟩
      simp only [execFilter, hy, heff, hkeeps.table, or_self, if_false, reduceCtorEq]

inductive Disarming (b : LinuxBackend) (sh : FilterShell) :
    Except Error Unit → LinuxBackend → FilterShell → Prop
  | disarmed {b' : LinuxBackend} {sh' : FilterShell} (harmed : b'.killArmed = false)
      (htable : sh'.table = sh.table ∨ sh'.table = none)
      (hfine : sh'.fine = true → sh.fine = true) : Disarming b sh (.ok ()) b' sh'
  | failed {sh' : FilterShell} (err : Error)
      (hfine : sh'.fine = true → sh.fine = true ∧ sh'.table = sh.table)
      (htable : sh'.table = sh.table ∨ sh'.table = none) : Disarming b sh (.error err) b sh'

theorem removeKillSwitch_disarming :
    Along (execFilter e) (fun _ _ _ => true) LinuxBackend.removeKillSwitch (Disarming b sh)
      b sh := by
  refine along_get_bind ?_
  split
  · exact along_throw (.failed _ (fun h => ⟨h, rfl⟩) (.inl rfl))
  split
  · rename_i hnot
    exact along_pure (.disarmed (by simpa using hnot) (.inl rfl) id)
  refine along_ask_bind (fun x _ hx => ?_) fun x err _ hx => ?_
  · refine along_modify (.disarmed rfl (.inr ?_) fun h => (Bool.and_eq_true_iff.1 h).1)
    simp only [execFilter, hx, Command.filter, true_or, if_true]
  refine .failed _ (fun hfine => ?_) ?_
  · obtain ⟨hfine, hord⟩ := Bool.and_eq_true_iff.1 hfine
    have heff : x.tookEffect = false := by
      simpa [orderly, hx] using hord
    refine ⟨hfine, ?_⟩
    simp [execFilter, hx, heff]
  · by_cases heff : x.tookEffect = true
    · exact .inr (by simp [execFilter, heff, Command.filter])
    · exact .inl (by simp [execFilter, hx, heff])

end

/-! ## The table and the calls of the controller -/

/-- The last arming that succeeded has not been taken back. -/
def armedLast : List Entry → Bool
  | [] => false
  | .armKillSwitch (.ok ()) :: _ => true
  | .removeKillSwitch (.ok ()) :: _ => false
  | _ :: log => armedLast log

/-- The table of a guest is built by loads; as long as all commands are orderly and the kill
switch counts as armed, they are loads for the endpoint it was last armed for. -/
def Sound (g : FilterGuest) : Prop :=
  ∃ es, g.table = built es ∧
    (g.fine = true → armedLast g.log = true →
      g.guest.host.backend.killArmed = true ∧ es ≠ [] ∧ ∀ e ∈ es, g.last = some e)

section

variable {e : Endpoint} {x : GuestAnswer} {g : FilterGuest}

theorem Sound.arm (h : Sound g) : Sound (filterExec e .armKillSwitch x g).2 := by
  obtain ⟨es, htable, hsound⟩ := h
  have harm : Arming e g.guest.host.backend ⟨⟨g.guest.host.kernel, []⟩, g.table, g.fine⟩
      (g.perform e .armKillSwitch x.endings).1.1 (g.perform e .armKillSwitch x.endings).1.2
      (g.perform e .armKillSwitch x.endings).2 := armKillSwitch_arming.outcome_of_always x.endings
  simp only [filterExec, FilterGuest.callBackend]
  generalize g.perform e .armKillSwitch x.endings = o at harm
  obtain ⟨⟨r, b'⟩, sh'⟩ := o
  cases harm with
  | armed harmed htab' hfine =>
    refine ⟨es ++ [e], ?_, fun hfine' _ => ⟨harmed, by simp, fun e' he' => ?_⟩⟩
    · rwa [built_append, ← htable]
    -- what was in the table before is for the same endpoint
    obtain ⟨-, hsame⟩ := hfine hfine'
    rcases mem_append.1 he' with he' | he'
    · have hmem : (e'.address, e'.port) ∈ endpoints g.table := by
        rw [htable, endpoints_built]
        exact mem_map_of_mem he'
      obtain ⟨haddr, hport⟩ := Prod.mk.inj (hsame _ hmem)
      rw [Endpoint.ext haddr hport]
    · rw [mem_singleton.1 he']
  | loaded err hnot htab' hfine =>
    refine ⟨es ++ [e], ?_, fun hfine' harmed => ?_⟩
    · rwa [built_append, ← htable]
    · obtain ⟨harmed', -⟩ := hsound (hfine hfine') harmed
      cases hnot.symm.trans harmed'
  | unchanged err hkeeps =>
    exact ⟨es, hkeeps.table.trans htable, fun hfine' => hsound (hkeeps.fine hfine')⟩

theorem Sound.disarm (h : Sound g) : Sound (filterExec e .removeKillSwitch x g).2 := by
  obtain ⟨es, htable, hsound⟩ := h
  have hdis : Disarming g.guest.host.backend ⟨⟨g.guest.host.kernel, []⟩, g.table, g.fine⟩
      (g.perform e .removeKillSwitch x.endings).1.1 (g.perform e .removeKillSwitch x.endings).1.2
      (g.perform e .removeKillSwitch x.endings).2 :=
    removeKillSwitch_disarming.outcome_of_always x.endings
  simp only [filterExec, FilterGuest.callBackend]
  generalize g.perform e .removeKillSwitch x.endings = o at hdis
  obtain ⟨⟨r, b'⟩, sh'⟩ := o
  cases hdis with
  | disarmed harmed htab' =>
    rcases htab' with htab' | htab'
    · exact ⟨es, htab'.trans htable, fun _ harmed => by cases harmed⟩
    · exact ⟨[], htab', fun _ harmed => by cases harmed⟩
  | failed err hfine htab' =>
    rcases htab' with htab' | htab'
    · exact ⟨es, htab'.trans htable, fun hfine' => hsound (hfine hfine').1⟩
    refine ⟨[], htab', fun hfine' harmed => ?_⟩
    -- the table was there, and is there
    obtain ⟨hfine, hsame⟩ := hfine hfine'
    obtain ⟨-, hne, -⟩ := hsound hfine harmed
    have hnone : built es = none := (htable.symm.trans hsame.symm).trans htab'
    cases es with
    | nil => exact absurd rfl hne
    | cons => cases hnone

/-- The calls of the backend that do not concern the table. -/
theorem Sound.leaves (h : Sound g) {call} {entry : Except Error Unit → Entry}
    (hcall : call ≠ .armKillSwitch) (hent : ∀ r log, armedLast (entry r :: log) = armedLast log)
    (hleav : Along (execFilter e) (fun _ _ _ => true) call.method
      (Leaves g.guest.host.backend.killArmed ⟨⟨g.guest.host.kernel, []⟩, g.table, g.fine⟩)
      g.guest.host.backend ⟨⟨g.guest.host.kernel, []⟩, g.table, g.fine⟩) :
    Sound (g.callBackend e call entry x).2 := by
  obtain ⟨es, htable, hsound⟩ := h
  obtain ⟨harmed, hkeeps⟩ := hleav.outcome_of_always x.endings
  refine ⟨es, hkeeps.table.trans htable, fun hfine' harmed' => ?_⟩
  have hlog : armedLast g.log = true := (hent _ _).symm.trans harmed'
  obtain ⟨hkill, hne, hlast⟩ := hsound (hkeeps.fine hfine') hlog
  refine ⟨harmed.trans hkill, hne, fun e' he' => ?_⟩
  have hsame : (g.callBackend e call entry x).2.last = g.last := by
    cases call with
    | armKillSwitch => exact absurd rfl hcall
    | _ => rfl
  exact hsame.trans (hlast e' he')

theorem Sound.call (e : Endpoint) (o : Op) (x : GuestAnswer) (g : FilterGuest) (h : Sound g) :
    Sound (filterExec e o x g).2 := by
  cases o with
  | armKillSwitch => exact h.arm
  | removeKillSwitch => exact h.disarm
  | configureTunnel =>
    exact h.leaves (by rintro ⟨⟩) (fun _ _ => rfl)
      ((leaves_preserved e _ _).configureTunnel ⟨rfl, .refl _⟩)
  | removeTunnel =>
    exact h.leaves (by rintro ⟨⟩) (fun _ _ => rfl)
      ((leaves_preserved e _ _).removeTunnel ⟨rfl, .refl _⟩)
  | _ => exact h

end

/-! ## What the controller reports -/

def Entry.arms : Entry → Bool
  | .armKillSwitch (.ok ()) => true
  | _ => false

def armings (log : List Entry) : Nat := (log.filter Entry.arms).length

/-- The controller reports the kill switch as armed only while the last arming stands, and never
in a state in which there is nothing to stop. -/
structure Reports (c : Controller) (log : List Entry) : Prop where
  armed : c.killSwitchArmed = true → armedLast log = true
  idle : c.state.idle → c.killSwitchArmed = false

/-- What does not concern the kill switch. -/
structure Aside (c : Controller) (log : List Entry) (c' : Controller) (log' : List Entry) :
    Prop where
  reported : c'.killSwitchArmed = c.killSwitchArmed
  armed : armedLast log' = armedLast log
  armings : armings log' = armings log

section

variable {i : Input} {c c' c'' : Controller} {log log' log'' : List Entry}

theorem Aside.trans (h : Aside c log c' log') (h' : Aside c' log' c'' log'') :
    Aside c log c'' log'' :=
  ⟨h'.reported.trans h.reported, h'.armed.trans h.armed, h'.armings.trans h.armings⟩

theorem Aside.of_eq (h : Aside c' log' c'' log'')
    (hrep : c'.killSwitchArmed = c.killSwitchArmed) (harmed : armedLast log' = armedLast log)
    (harm : GuestVpn.armings log' = GuestVpn.armings log) : Aside c log c'' log'' :=
  .trans ⟨hrep, harmed, harm⟩ h

theorem Begun.kept_aside (h : Begun c log c' log') : Aside c log c' log' := by
  cases h <;> exact ⟨rfl, rfl, rfl⟩

theorem Detached.kept_aside (h : Detached c log c' log') :
    Aside c log c' log' ∧ c'.state = c.state := by
  cases h <;> exact ⟨⟨rfl, rfl, rfl⟩, rfl⟩

theorem Ended.kept_aside (h : Ended c log c' log') : Aside c log c' log' := by
  cases h <;> exact ⟨rfl, rfl, rfl⟩

theorem Attempt.kept_aside (h : Attempt c log c' log') : Aside c log c' log' ∧ ¬ c'.state.idle := by
  cases h with
  | startFailed honl hdet =>
    obtain ⟨haside, hst⟩ := hdet.kept_aside
    refine ⟨haside.of_eq rfl rfl rfl, ?_⟩
    rw [hst]
    rintro (h | h) <;> cases h
  | unproved proof error hbegun hdet =>
    obtain ⟨haside, hst⟩ := hdet.kept_aside
    refine ⟨hbegun.kept_aside.trans (haside.of_eq rfl rfl rfl), ?_⟩
    rw [hst]
    rintro (h | h) <;> cases h
  | proved proof hbegun =>
    refine ⟨hbegun.kept_aside.trans ⟨rfl, rfl, rfl⟩, ?_⟩
    rintro (h | h) <;> cases h

/-- A callback that was not reached, or failed, where this is not an arming. -/
theorem SetupFailed.armings {failed : Error → Entry} {entries} (h : SetupFailed failed entries)
    (hfail : ∀ e, (failed e).arms = false)
    (hlast : ∀ e log, armedLast (failed e :: log) = armedLast log) (log : List Entry) :
    armings (entries ++ log) = armings log ∧ armedLast (entries ++ log) = armedLast log := by
  cases h with
  | setup => exact ⟨rfl, rfl⟩
  | callback e =>
    refine ⟨?_, hlast e _⟩
    simp only [GuestVpn.armings, cons_append, nil_append]
    rw [filter_cons_of_neg (by simp [hfail]), filter_cons_of_neg (by simp [Entry.arms])]

theorem Reports.aside (h : Reports c log) (haside : Aside c log c' log')
    (hst : c'.state = c.state ∨ ¬ c'.state.idle) : Reports c' log' := by
  refine ⟨fun harmed => ?_, fun hidle => ?_⟩
  · rw [haside.armed]
    exact h.armed (haside.reported.symm.trans harmed)
  · rcases hst with hst | hst
    · rw [hst] at hidle
      exact haside.reported.trans (h.idle hidle)
    · exact absurd hidle hst

/-- **A turn keeps the report right.** -/
theorem Turn.reports (hturn : Turn i c log c' log') (h : Reports c log) : Reports c' log' := by
  cases hturn with
  | quiet => exact h
  | inspectFailed => exact ⟨h.armed, h.idle⟩
  | armFailed ipv6Enabled hidle =>
    refine ⟨fun harmed => ?_, h.idle⟩
    cases (h.idle hidle).symm.trans harmed
  | tunnelFailed ipv6Enabled hidle hents =>
    refine ⟨fun _ => ?_, by rintro (h | h) <;> cases h⟩
    exact (hents.armings (fun _ => rfl) (fun _ _ => rfl) _).2
  | configured ipv6Enabled hidle hatt =>
    obtain ⟨haside, hbusy⟩ := hatt.kept_aside
    exact ⟨fun _ => haside.armed, fun hidle => absurd hidle hbusy⟩
  | attempted hi hst hatt => exact h.aside hatt.kept_aside.1 (.inr hatt.kept_aside.2)
  | idleStopFailed => exact ⟨h.armed, h.idle⟩
  | idleStopped => exact ⟨by rintro ⟨⟩, fun _ => rfl⟩
  | stopOnlineFailed => exact ⟨h.armed, by rintro (h | h) <;> cases h⟩
  | removeTunnelFailed hbusy hend | removeKillSwitchFailed hbusy hend =>
    refine h.aside (hend.kept_aside.trans ⟨rfl, rfl, rfl⟩) (.inr ?_)
    rintro (h | h) <;> cases h
  | stopped => exact ⟨by rintro ⟨⟩, fun _ => rfl⟩

/-- What is reported as armed was so before the turn, or is armed in the turn. -/
theorem Turn.armed_or (hturn : Turn i c log c' log') (harmed : c'.killSwitchArmed = true) :
    c.killSwitchArmed = true ∧ armings log' = armings log ∨
      c.state.idle ∧ armings log' = armings log + 1 := by
  cases hturn with
  | quiet | inspectFailed _ | idleStopFailed _ | stopOnlineFailed => exact .inl ⟨harmed, rfl⟩
  | armFailed ipv6Enabled hidle hents =>
    exact .inl ⟨harmed, (hents.armings (fun _ => rfl) (fun _ _ => rfl) _).1⟩
  | tunnelFailed ipv6Enabled hidle hents =>
    have hsame := (hents.armings (fun _ => rfl) (fun _ _ => rfl) (armedLog ipv6Enabled log)).1
    exact .inr ⟨hidle, hsame⟩
  | configured ipv6Enabled hidle hatt =>
    have hsame := hatt.kept_aside.1.armings
    exact .inr ⟨hidle, hsame⟩
  | attempted hi hst hatt =>
    obtain ⟨haside, -⟩ := hatt.kept_aside
    exact .inl ⟨haside.reported.symm.trans harmed, haside.armings⟩
  | removeTunnelFailed hbusy hend | removeKillSwitchFailed hbusy hend =>
    have haside := hend.kept_aside
    exact .inl ⟨haside.reported.symm.trans harmed, haside.armings⟩
  | idleStopped | stopped => cases harmed

/-- Where there is nothing to stop, only `Configure` arms the kill switch. -/
theorem Input.Runs.armings {m} (hruns : i.Runs m) (log : List Entry)
    (hi : ∀ ctx now, i ≠ .configure ctx now) (hidle : c.state.idle) :
    Does exec m (fun _ _ log' => armings log' = armings log) c log := by
  have hver ctx now : Does exec (Controller.verify ctx now)
      (fun _ _ log' => GuestVpn.armings log' = GuestVpn.armings log) c log := by
    refine does_get_bind ?_
    rw [if_pos]
    · exact does_throw rfl
    · rcases hidle with h | h <;> simp [h]
  cases hruns with
  | configure ctx now => exact absurd rfl (hi ctx now)
  | verify ctx now => exact hver ctx now
  | tick l ctx start => exact hver ctx start
  | stop =>
    refine does_get_bind ?_
    rw [if_pos (show c.state = .unconfigured ∨ c.state = .stopped from hidle)]
    refine does_bind (stopOnline_does ?_ fun e => does_throw rfl)
    intro c₁ log₁ hend
    rw [Then]
    exact does_modify hend.kept_aside.armings
  | monitor =>
    refine does_get_bind ?_
    split
    · exact does_throw rfl
    · exact does_pure rfl

end

/-! ## Runs with changing profiles -/

/-- A move, and the endpoint of the profile that it would configure. -/
structure FilterMove where
  move : Move GuestAnswer
  endpoint : Endpoint

structure FilterWorld where
  world : World FilterGuest
  /-- The endpoint of the profile with which `Configure` was last begun. -/
  configuredLast : Option Endpoint

/-- A profile counts as configured when its `Configure` is not refused for the state. -/
def FilterWorld.configures (w : FilterWorld) : Input → Bool
  | .configure _ _ =>
    w.world.controller.state = .unconfigured ∨ w.world.controller.state = .stopped
  | _ => false

def FilterWorld.step (m : FilterMove) (w : FilterWorld) : FilterWorld where
  world := w.world.step (filterExec m.endpoint) m.move
  configuredLast := if w.configures m.move.input then some m.endpoint else w.configuredLast

/-- All runs of a controller on a guest without a table. -/
def filterMachine : Machine FilterWorld FilterMove where
  init w := ∃ online policy underlay c, newController online policy underlay = .ok c ∧
    w = ⟨⟨c, .fresh, [], []⟩, none⟩
  step := FilterWorld.step

def OrderlyStep (m : FilterMove) (w : FilterWorld) : Prop :=
  (w.step m).world.outside.fine = true

/-- Since a number of armings the kill switch was not armed, or was armed last for the endpoint. -/
def ArmedFor (e : Endpoint) (n : Nat) (last : Option Endpoint) (g : FilterGuest) : Prop :=
  armings g.log = n ∧ g.last = last ∨ n < armings g.log ∧ g.last = some e

theorem ArmedFor.call {n : Nat} {last} (o : Op) (x : GuestAnswer) (g : FilterGuest)
    (h : ArmedFor e n last g) : ArmedFor e n last (filterExec e o x g).2 := by
  cases o with
  | armKillSwitch =>
    simp only [filterExec, FilterGuest.callBackend]
    generalize g.perform e .armKillSwitch x.endings = o
    obtain ⟨⟨r, b⟩, sh⟩ := o
    cases r with
    | error => exact h
    | ok =>
      refine .inr ⟨?_, rfl⟩
      have hgrown : n ≤ armings g.log := by
        rcases h with ⟨h, -⟩ | ⟨h, -⟩
        · exact h.ge
        · exact h.le
      exact Nat.lt_succ_of_le hgrown
  | _ => exact h

structure Current (w : FilterWorld) : Prop where
  reports : Reports w.world.controller w.world.outside.log
  sound : Sound w.world.outside
  last : w.world.controller.killSwitchArmed = true →
    w.world.outside.last = w.configuredLast

section

variable {m : FilterMove} {w : FilterWorld}

theorem FilterWorld.configures_idle {i} (h : w.configures i = true) :
    w.world.controller.state.idle := by
  cases i with
  | configure => simpa [FilterWorld.configures, State.idle] using h
  | _ => cases h

theorem FilterWorld.step_turn (m : FilterMove) (w : FilterWorld) :
    Turn m.move.input w.world.controller w.world.outside.log (w.step m).world.controller
      (w.step m).world.outside.log :=
  World.step_turn (filter_refines m.endpoint) m.move w.world

/-- Where there is nothing to stop, only a `Configure` arms the kill switch. -/
theorem FilterWorld.configures_of_armings (hidle : w.world.controller.state.idle)
    (harm : armings (w.step m).world.outside.log ≠ armings w.world.outside.log) :
    w.configures m.move.input = true := by
  by_cases hi : ∃ ctx now, m.move.input = .configure ctx now
  · obtain ⟨ctx, now, hi⟩ := hi
    rw [hi]
    simpa [FilterWorld.configures, State.idle] using hidle
  refine absurd ?_ harm
  rcases w.world.step_runs (filterExec m.endpoint) m.move with
    ⟨-, ho⟩ | ⟨method, r, w', hruns, heq, -, ho⟩
  · exact congrArg (armings ·.log) ho
  · have hsame := hruns.armings w.world.outside.log (fun ctx now h => hi ⟨ctx, now, h⟩) hidle
    exact (congrArg (armings ·.log) ho).trans
      (World.perform_does (hsame.refine (filter_refines m.endpoint)) heq)

/-- **A step keeps the endpoint current.** -/
theorem Current.step (h : Current w) : Current (w.step m) := by
  have hturn := w.step_turn m
  have hfor : ArmedFor m.endpoint (armings w.world.outside.log) w.world.outside.last
      (w.step m).world.outside :=
    World.step_outside .call m.move w.world (.inl ⟨rfl, rfl⟩)
  refine ⟨hturn.reports h.reports,
    World.step_outside (.call m.endpoint) m.move w.world h.sound, fun harmed => ?_⟩
  rcases hturn.armed_or harmed with ⟨harmed', hsame⟩ | ⟨hidle, hmore⟩
  · -- it was armed before the step, so that a profile was not configured in it
    have hnot : w.configures m.move.input ≠ true := by
      intro hconf
      cases (h.reports.idle (w.configures_idle hconf)).symm.trans harmed'
    have hkept : (w.step m).configuredLast = w.configuredLast := if_neg hnot
    rcases hfor with ⟨-, hlast⟩ | ⟨hlt, -⟩
    · rw [hlast, hkept]
      exact h.last harmed'
    · exact absurd hsame hlt.ne'
  · have hconf : w.configures m.move.input = true :=
      FilterWorld.configures_of_armings hidle (by omega)
    have hnew : (w.step m).configuredLast = some m.endpoint := if_pos hconf
    rcases hfor with ⟨hsame, -⟩ | ⟨-, hlast⟩
    · omega
    · rw [hlast, hnew]

end

theorem reachable_current {G : FilterMove → FilterWorld → Prop} {w}
    (h : filterMachine.Reachable G w) : Current w := by
  refine h.inv ?_ fun m v _ hv => hv.step
  rintro _ ⟨online, policy, underlay, c, hc, rfl⟩
  have harmed := (newController_fresh hc).2.1
  refine ⟨⟨fun h => ?_, fun _ => harmed⟩, ⟨[], rfl, fun _ h => ?_⟩, fun h => ?_⟩
  · cases harmed.symm.trans h
  · cases h
  · cases harmed.symm.trans h

/-- **The kill switch admits only the current endpoint.** In every state of a run with changing
profiles, in which no rules are successfully added to those for another endpoint and no deletion
of the table fails after it took effect, while the controller reports the kill switch as armed:
what the output hook accepts leaves on the loopback or the tunnel, or is neighbour discovery, or
goes to the endpoint of the profile that was configured last. -/
theorem endpoint_current {w : FilterWorld} (h : filterMachine.Reachable OrderlyStep w)
    (harmed : w.world.controller.status.killSwitchArmed = true) {p : Packet}
    (haccept : verdict w.world.outside.table.toList .output p = .accept) :
    ∃ e, w.configuredLast = some e ∧ Permitted e p := by
  have hcur := reachable_current h
  have hfine : w.world.outside.fine = true := by
    refine h.inv (P := fun w : FilterWorld => w.world.outside.fine = true) ?_
      fun m v hfine _ => hfine
    rintro _ ⟨online, policy, underlay, c, -, rfl⟩
    rfl
  obtain ⟨es, htable, hsound⟩ := hcur.sound
  obtain ⟨-, hne, hlast⟩ := hsound hfine (hcur.reports.armed harmed)
  rw [htable] at haccept
  obtain ⟨e, he, hperm⟩ := permitted_of_accept hne haccept
  exact ⟨e, (hcur.last harmed).symm.trans (hlast e he), hperm⟩

/-! ## The table itself, in every run -/

/-- **A loaded table is closed.** In every state of every run, whichever commands fail: while there
is a table, it forwards nothing; what it lets out leaves on the loopback or the tunnel, or is
neighbour discovery, or goes to an endpoint that a rule names; and over the underlay it lets in
only replies and neighbour discovery. -/
theorem loaded_table_closed {G : FilterMove → FilterWorld → Prop} {w : FilterWorld}
    (h : filterMachine.Reachable G w) {table : Table} (htable : w.world.outside.table = some table)
    (p : Packet) :
    verdict [table] .forward p = .drop ∧
    (verdict [table] .output p = .accept →
      ∃ e : Endpoint, (e.address, e.port) ∈ endpoints (some table) ∧ Permitted e p) ∧
    (verdict [table] .input p = .accept → p.iifname = underlayInterface →
      p.ctState ∈ [.established, .related] ∨ NeighborDiscovery p) := by
  obtain ⟨es, hbuilt, -⟩ := (reachable_current h).sound
  rw [htable] at hbuilt
  cases es with
  | nil => cases hbuilt
  | cons e es =>
    have hlist : [table] = (built (e :: es)).toList := by rw [← hbuilt, Option.toList_some]
    refine ⟨?_, fun hout => ?_, fun hin hunder => ?_⟩
    · obtain rfl := Option.some.inj hbuilt
      exact verdict_eq_drop.2 ⟨_, mem_singleton.2 rfl, _, mem_of_getElem? (i := 1) rfl, rfl, rfl⟩
    · rw [hlist] at hout
      obtain ⟨e', he', hperm⟩ := permitted_of_accept (cons_ne_nil e es) hout
      refine ⟨e', ?_, hperm⟩
      rw [hbuilt, endpoints_built]
      exact mem_map_of_mem he'
    · obtain rfl := Option.some.inj hbuilt
      have hacc := verdict_eq_accept.1 hin _ (mem_singleton.2 rfl) _
        (mem_of_getElem? (i := 0) rfl) rfl
      obtain ⟨rule, hrule, happ, -⟩ := exists_rule_of_accept hacc
      obtain ⟨-, -, hrule⟩ := mem_flatMap.1 hrule
      rw [Rule.applies_iff] at happ
      simp only [inputRules, mem_cons, not_mem_nil, or_false] at hrule
      rcases hrule with rfl | rfl | rfl | rfl
      · simp [hunder, underlayInterface] at happ
      · left
        simpa using happ
      · simp [hunder, underlayInterface, tunnelInterface] at happ
      · right
        simp only [neighborRule, forall_mem_cons, holds_icmpv6Type] at happ
        obtain ⟨-, -, ⟨hfam, type, -, hpay⟩, -⟩ := happ
        exact ⟨hfam, type, hpay⟩

/-! ## Sample runs -/

def sampleEndpoint : Endpoint := ⟨.v4 0xb99f9d01, 51820, rfl⟩
def otherEndpoint : Endpoint := ⟨.v4 0xb99f9d02, 51820, rfl⟩

def samplePacket : Packet where
  iifname := ""
  oifname := underlayInterface
  header := .ipv4 0x0af0383a 0xb99f9d01
  payload := .udp 40000 51820
  ctState := .new

def sampleStart : FilterWorld := ⟨⟨sampleController, .fresh, [], []⟩, none⟩

theorem init_sampleStart : filterMachine.init sampleStart :=
  ⟨true, sampleController.policy, sampleController.underlay, sampleController, rfl, rfl⟩

theorem endpoint_current_sample :
    let w := filterMachine.play [⟨(Input.configure background 0).working, sampleEndpoint⟩]
      sampleStart
    w.world.controller.status.killSwitchArmed = true ∧
      verdict w.world.outside.table.toList .output samplePacket = .accept ∧
      ∃ e, w.configuredLast = some e ∧ Permitted e samplePacket := by
  intro w
  have hreach : filterMachine.Reachable OrderlyStep w :=
    @Machine.reachable_play _ _ filterMachine OrderlyStep _
      (fun m w => (w.step m).world.outside.fine) _ (fun _ _ h => h) init_sampleStart
      (by decide +kernel)
  have harmed : w.world.controller.status.killSwitchArmed = true := by decide +kernel
  have hacc : verdict w.world.outside.table.toList .output samplePacket = .accept := by
    decide +kernel
  exact ⟨harmed, hacc, endpoint_current hreach harmed hacc⟩

/-- An input on which the given command of the given call fails after it took effect. -/
def Input.failingAfter (i : Input) (call command : Nat) : Move GuestAnswer where
  input := i
  answers n :=
    { sampleGuestAnswer with
      endings := fun k =>
        if n = call ∧ k = command then ⟨some tunnelLost, true⟩ else ⟨none, false⟩ }

/-- The rules of the first profile are loaded by a command that fails, and the second profile is
configured: its kill switch admits the endpoint of the first one. And the table is deleted by a
command that fails: without a table everything is let out, and the kill switch counts as armed. -/
theorem other_endpoint_admitted :
    ¬ Permitted otherEndpoint samplePacket ∧
    (∃ w, filterMachine.Reachable (Machine.free FilterMove FilterWorld) w ∧
      w.world.controller.status.killSwitchArmed = true ∧ w.configuredLast = some otherEndpoint ∧
      verdict w.world.outside.table.toList .output samplePacket = .accept) ∧
    ∃ w, filterMachine.Reachable (Machine.free FilterMove FilterWorld) w ∧
      w.world.controller.status.killSwitchArmed = true ∧ w.configuredLast = some otherEndpoint ∧
      w.world.outside.table = none ∧
      verdict w.world.outside.table.toList .output samplePacket = .accept := by
  refine ⟨?_, ⟨_, Machine.reachable_play_free
    [⟨(Input.configure background 0).failingAfter 2 1, sampleEndpoint⟩,
      ⟨(Input.configure background 0).working, otherEndpoint⟩] init_sampleStart,
    by decide +kernel, rfl, by decide +kernel⟩, _, Machine.reachable_play_free
    [⟨(Input.configure background 0).working, otherEndpoint⟩,
      ⟨Input.stop.failingAfter 2 0, otherEndpoint⟩] init_sampleStart,
    by decide +kernel, rfl, by decide +kernel, by decide +kernel⟩
  rintro (h | h | ⟨-, ⟨h, -⟩ | ⟨h, -⟩⟩)
  · exact absurd h (by decide)
  · exact absurd h (by decide)
  · cases h
  · exact absurd h (by decide)

theorem loaded_table_closed_sample : ∃ w, filterMachine.Reachable (Machine.free _ _) w ∧
    ∃ table, w.world.outside.table = some table ∧ ∀ p, verdict [table] .forward p = .drop := by
  have hreach := Machine.reachable_play_free
    [⟨(Input.configure background 0).failingAfter 2 1, sampleEndpoint⟩] init_sampleStart
  refine ⟨_, hreach, sampleEndpoint.table, by rfl, fun p => ?_⟩
  exact (loaded_table_closed hreach (by rfl) p).1

end PrivateVm.GuestVpn
