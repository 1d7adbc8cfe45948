import PrivateVm.Session.Sequential

set_option autoImplicit false

/-! # The system around a session: callers, subscribers and the actor

`manager` is the system of one entry: the actor with the programs of `Session/Actor.lean`, in an
environment of callers that look the entry up, send commands, ask for cleanup, read snapshots,
receive events and close subscriptions, in any order. The core evolves on its own
(`World.projects_core`), so that what is proved on the sequential actor holds in every
interleaving (`manager_keeps`).
-/

namespace PrivateVm.Session

open Timestamp Checked Program

/-! ## Clients -/

/-- A subscription: its replay, the events buffered in its channel and those received from it.
`reason` is set when the actor has finished it. -/
structure Subscriber where
  id : Nat
  after : Nat
  replay : List Event
  queue : List Event
  received : List Event
  cancelled : Bool
  attached : Bool
  reason : Option (Option Sentinel)
  deriving DecidableEq

structure Clients where
  subscribers : List Subscriber
  nextSubID : Nat
  unsubscribe : List Nat
  commands : List Command
  cleanup : Option Nat
  nextAttempt : Nat
  admissions : List Nat
  completed : List (Nat × CommandResult)
  holders : Nat
  observed : List Snapshot
  responses : List CommandResult
  deriving DecidableEq

namespace Clients

variable (k : Clients)

def attachedIDs : List Nat :=
  (k.subscribers.filter fun s => s.attached).map Subscriber.id

def update (id : Nat) (f : Subscriber → Subscriber) : Clients :=
  { k with subscribers := k.subscribers.map fun s => if s.id = id then f s else s }

def subscriber? (id : Nat) : Option Subscriber :=
  k.subscribers.find? fun s => s.id == id

/-- `removeSubscriber`: it does nothing to one already removed. -/
def detach (id : Nat) (reason : Option Sentinel) : Clients :=
  k.update id fun s => if s.attached then { s with attached := false, reason := some reason } else s

def push (id : Nat) (event : Event) : Clients :=
  k.update id fun s => { s with queue := s.queue ++ [event] }

def attach (after : Nat) (replay : List Event) : Clients :=
  { k with
    nextSubID := k.nextSubID + 1
    subscribers := k.subscribers ++
      [⟨k.nextSubID + 1, after, replay, [], [], false, true, none⟩] }

def receive (id : Nat) : Clients :=
  k.update id fun s =>
    match s.queue with
    | [] => s
    | event :: rest => { s with queue := rest, received := s.received ++ [event] }

/-- `Close`: the cancel channel is closed, and the actor told if its queue has room. -/
def close (id : Nat) : Clients :=
  { k.update id (fun s => { s with cancelled := true }) with
    unsubscribe :=
      if k.unsubscribe.length < maxSubscribersPerSession * 2 then k.unsubscribe ++ [id]
      else k.unsubscribe }

/-- `completeCleanup`: only the current attempt can be completed. -/
def completeCleanup (attempt : Nat) (result : CommandResult) : Clients :=
  if k.cleanup = some attempt then
    { k with cleanup := none, completed := (attempt, result) :: k.completed }
  else k

/-- `beginCleanup`, with the admission goroutine that a first caller starts. -/
def beginCleanup : Clients :=
  match k.cleanup with
  | some _ => k
  | none =>
    { k with
      cleanup := some k.nextAttempt
      nextAttempt := k.nextAttempt + 1
      admissions := k.admissions ++ [k.nextAttempt] }

/-- What the channels and the subscriber map answer to an operation of the actor. A map is
visited in any order. -/
def answer (o : Op) (x : Choice) : Choice :=
  match o with
  | .subscriberIDs =>
    { x with order := if x.order.isPerm k.attachedIDs then x.order else k.attachedIDs }
  | .cancelled id => { x with flag := (k.subscriber? id).any Subscriber.cancelled }
  | .send id _ =>
    { x with flag := (k.subscriber? id).any fun s => s.queue.length < maxSubscriberQueue }
  | .subscriberCount => { x with count := k.attachedIDs.length }
  | .addSubscriber _ _ => { x with count := k.nextSubID + 1 }
  | _ => x

/-- What an operation of the actor changes here. -/
def after (o : Op) (x : Choice) : Clients :=
  match o with
  | .send id event => if x.flag then k.push id event else k
  | .removeSubscriber id reason => k.detach id reason
  | .addSubscriber after replay => k.attach after replay
  | .completeCleanup attempt result => k.completeCleanup attempt result
  | .respond result => { k with responses := result :: k.responses }
  | _ => k

end Clients

/-! ## The system -/

structure World where
  core : Core
  clients : Clients
  deriving DecidableEq

def World.exec (o : Op) (x : Choice) (w : World) : Res o × World :=
  let x := w.clients.answer o x
  ((w.core.exec o x).1, ⟨(w.core.exec o x).2, w.clients.after o x⟩)

/-- What can happen besides the actor's operations: the actor takes a command or an
unsubscription, a caller obtains the entry, sends a command, begins a cleanup or reads a
snapshot, an admission goroutine acts, a subscriber receives or closes. -/
inductive Input where
  | command
  | unsubscribe
  | lookup
  | request (cmd : Command)
  | beginCleanup
  | enqueue (attempt : Nat)
  | admitDone (attempt : Nat)
  | observe
  | receive (id : Nat)
  | close (id : Nat)
  deriving DecidableEq

/-- `resourceNamePattern`: a lower-case letter, then at most 63 letters, digits, dots or
hyphens. -/
def resourceNamePattern (name : String) : Bool :=
  let isLower (c : Char) : Bool := 97 ≤ c.toNat && c.toNat ≤ 122
  match name.toList with
  | [] => false
  | c :: rest =>
    isLower c && rest.length ≤ 63 &&
      rest.all fun d => isLower d || isDecimal d || d == '.' || d == '-'

/-- The commands a caller can send: cleanup is asked for in another way. -/
def Command.requestable : Command → Bool
  | .transition _ | .subscribe _ => true
  | .workflow target => eventCodePattern target
  | .acquire resource => resourceNamePattern resource
  | .cleanup _ => false

/-- The two channels the loop of `run` waits on. -/
def World.take (i : Input) (w : World) : Option (Code Bool × World) :=
  match i with
  | .command =>
    match w.clients.commands with
    | [] => none
    | cmd :: rest => some (handle cmd, { w with clients := { w.clients with commands := rest } })
  | .unsubscribe =>
    match w.clients.unsubscribe with
    | [] => none
    | id :: rest =>
      some (do call (.removeSubscriber id none); return false,
        { w with clients := { w.clients with unsubscribe := rest } })
  | _ => none

/-- A step of the environment on the clients, given what it reads of the core. -/
def Clients.env (i : Input) (c : Core) (k : Clients) : Option Clients :=
  match i with
  | .command | .unsubscribe => none
  | .lookup => if c.registered then some { k with holders := k.holders + 1 } else none
  | .request cmd =>
    if k.holders ≠ 0 ∧ cmd.requestable ∧ k.commands.length < maxCommandQueue then
      some { k with commands := k.commands ++ [cmd] }
    else none
  | .beginCleanup => if k.holders ≠ 0 then some k.beginCleanup else none
  | .enqueue attempt =>
    if attempt ∈ k.admissions ∧ k.commands.length < maxCommandQueue then
      some { k with
        admissions := k.admissions.erase attempt
        commands := k.commands ++ [.cleanup attempt] }
    else none
  | .admitDone attempt =>
    if attempt ∈ k.admissions ∧ c.done then
      some ({ k with admissions := k.admissions.erase attempt }.completeCleanup attempt
        ⟨zeroSnapshot, none, some Sentinel.notFound.err⟩)
    else none
  | .observe =>
    if k.holders ≠ 0 then some { k with observed := c.session.snapshot :: k.observed } else none
  | .receive id => some (k.receive id)
  | .close id =>
    if (k.subscriber? id).any fun s => !s.cancelled then some (k.close id) else none

theorem Clients.mem_completeCleanup {k : Clients} {attempt : Nat} {result : CommandResult}
    {p : Nat × CommandResult} (h : p ∈ (k.completeCleanup attempt result).completed) :
    p = (attempt, result) ∨ p ∈ k.completed := by
  unfold Clients.completeCleanup at h
  split at h
  · exact List.mem_cons.1 h
  · exact .inr h

variable {i : Input} {w w' : World} {G : Guard Op Choice World Input}

/-- What a step of the environment can be. -/
inductive Clients.EnvStep (c : Core) (k : Clients) : Input → Clients → Prop
  | lookup (h : c.registered = true) : EnvStep c k .lookup { k with holders := k.holders + 1 }
  | request {cmd} (h : k.holders ≠ 0 ∧ cmd.requestable = true ∧
      k.commands.length < maxCommandQueue) :
      EnvStep c k (.request cmd) { k with commands := k.commands ++ [cmd] }
  | beginCleanup (h : k.holders ≠ 0) : EnvStep c k .beginCleanup k.beginCleanup
  | enqueue {attempt} (h : attempt ∈ k.admissions ∧ k.commands.length < maxCommandQueue) :
      EnvStep c k (.enqueue attempt) { k with
        admissions := k.admissions.erase attempt
        commands := k.commands ++ [.cleanup attempt] }
  | admitDone {attempt} (h : attempt ∈ k.admissions ∧ c.done = true) :
      EnvStep c k (.admitDone attempt)
        ({ k with admissions := k.admissions.erase attempt }.completeCleanup attempt
          ⟨zeroSnapshot, none, some Sentinel.notFound.err⟩)
  | observe (h : k.holders ≠ 0) :
      EnvStep c k .observe { k with observed := c.session.snapshot :: k.observed }
  | receive (id : Nat) : EnvStep c k (.receive id) (k.receive id)
  | close {id} (h : (k.subscriber? id).any (fun s => !s.cancelled) = true) :
      EnvStep c k (.close id) (k.close id)

theorem Clients.env_step {c : Core} {k k' : Clients} (h : k.env i c = some k') :
    k.EnvStep c i k' := by
  cases i with
  | command | unsubscribe => cases h
  | receive id =>
    obtain rfl := Option.some.inj h
    exact .receive id
  | _ =>
    obtain ⟨hcond, hk⟩ := Option.ite_none_right_eq_some.1 h
    obtain rfl := Option.some.inj hk
    constructor
    exact hcond

def World.env (i : Input) (w : World) : Option World :=
  (w.clients.env i w.core).map fun k => { w with clients := k }

def manager : Actor Op Res Choice World Input := ⟨World.exec, World.take, World.env⟩

abbrev anything : Guard Op Choice World Input := Guard.free Op Choice World Input

/-- The entry that `Create` registers. -/
def World.create (s : Session) : World where
  core :=
    { session := s, accepting := true, steps := [], handles := 0, place := .kept,
      registered := true, tombstone := none, done := false, committed := s.events, reads := 0,
      trace := [] }
  clients :=
    { subscribers := [], nextSubID := 0, unsubscribe := [], commands := [], cleanup := none,
      nextAttempt := 0, admissions := [], completed := [], holders := 0, observed := [],
      responses := [] }

/-- `Create` makes a session at the time of the clock and writes its record before it starts
the actor. -/
def Created (w : World) : Prop :=
  ∃ id ownerUID role now s, newOwned id ownerUID role (Time.utc now) = .ok s ∧
    (∃ data, encodeSnapshot s.snapshot = .ok data) ∧ w = World.create s

/-! ## The core evolves on its own -/

theorem World.env_core (h : w.env i = some w') : w'.core = w.core := by
  obtain ⟨k, -, rfl⟩ := Option.map_eq_some_iff.1 h
  rfl

theorem rely_core (h : (manager.rules G).rely w w') : w'.core = w.core := by
  induction h with
  | refl => rfl
  | tail _ hstep ih =>
    obtain ⟨i, -, hi⟩ := hstep
    exact (World.env_core hi).trans ih

theorem World.projects_core {allows : Op → Choice → Core → Prop}
    (h : ∀ o x w, G.op o x w → allows o (w.clients.answer o x) w.core) :
    Projects (manager.rules G) (coreRules allows) World.core where
  exec o x w hx := ⟨w.clients.answer o x, h o x w hx, rfl⟩
  rely _ _ hw := (rely_core hw).symm

theorem World.projects_any : Projects (manager.rules G) (coreRules anyChoice) World.core :=
  World.projects_core fun _ _ _ _ => trivial

/-- The programs the actor takes up. -/
theorem World.take_cases {p} (h : w.take i = some (p, w')) :
    (∃ cmd rest, w.clients.commands = cmd :: rest ∧ p = handle cmd ∧
      w' = { w with clients := { w.clients with commands := rest } }) ∨
    (∃ id rest, w.clients.unsubscribe = id :: rest ∧
      p = (do call (.removeSubscriber id none); return false) ∧
      w' = { w with clients := { w.clients with unsubscribe := rest } }) := by
  unfold World.take at h
  split at h
  · split at h
    · cases h
    · rename_i cmd rest hcmd
      cases h
      exact .inl ⟨cmd, rest, hcmd, rfl, rfl⟩
  · split at h
    · cases h
    · rename_i id rest hid
      cases h
      exact .inr ⟨id, rest, hid, rfl, rfl⟩
  · cases h

/-- **What is safe for the sequential actor is safe in every interleaving.** -/
theorem manager_keeps {allows : Op → Choice → Core → Prop} {I J K : Core → Prop}
    (hG : ∀ o x w, G.op o x w → allows o (w.clients.answer o x) w.core)
    (hinit : ∀ w, Created w → J w.core) (hidle : ∀ c, J c → I c) (hend : ∀ c, K c → I c)
    (hhd : ∀ cmd c, J c →
      Safe (coreRules allows) I (handle cmd) (fun b c => if b then K c else J c) c) :
    manager.Keeps G Created (fun w => I w.core) (fun w => J w.core) (fun w => K w.core) where
  init := hinit
  idle w := hidle w.core
  env w w' hw := by
    rintro ⟨i, -, hi⟩
    rwa [World.env_core hi]
  take w w' i p hw htake := by
    have hsafe : Safe (coreRules allows) I p (fun b c => if b then K c else J c) w'.core := by
      obtain ⟨cmd, rest, -, rfl, rfl⟩ | ⟨id, rest, -, rfl, rfl⟩ := World.take_cases htake
      · exact hhd cmd w.core hw
      · exact core_call.2 ⟨hidle _ hw, fun _ _ => core_pure.2 ⟨hidle _ hw, hw⟩⟩
    exact (Safe.of_project (World.projects_core hG) hsafe).post fun b w h => by
      cases b <;> exact h
  ended w := hend w.core
  endedEnv w w' hw := by
    rintro ⟨i, -, hi⟩
    rwa [World.env_core hi]

/-! ## Runs of one session -/

def startTime : Time := ⟨1767225600000000000, 0⟩

/-- A workstation session, as `Create` leaves it. -/
def startWorld : World :=
  World.create
    { id := "pvm-00112233445566778899aabbccddeeff", ownerUID := 1000, role := .workstation,
      phase := .created, workflowState := "", sequence := 1, createdAt := startTime,
      updatedAt := startTime, events := [createdEvent startTime] }

theorem created_startWorld : Created startWorld := by
  refine ⟨_, 1000, .workstation, startTime, startWorld.core.session,
    newOwned_eq_ok.2 ⟨rfl, ?_, by decide, rfl⟩, ?_, rfl⟩
  · decide +kernel
  cases h : encodeSnapshot startWorld.core.session.snapshot with
  | ok data => exact ⟨data, rfl⟩
  | error =>
    have hok : (encodeSnapshot startWorld.core.session.snapshot).toBool = true := by
      decide +kernel
    rw [h] at hok
    cases hok

/-- What a run of that session leads to is reachable. -/
theorem reach_startWorld {P : World → Thread Op Res → Prop} [∀ w t, Decidable (P w t)]
    (test : Act Choice Input → World × Thread Op Res → Bool)
    (hG : ∀ act c, test act c = true → G.permits act c) (acts : List (Act Choice Input))
    (h : (manager.run test acts (startWorld, .idle)).any (fun c => decide (P c.1 c.2)) = true) :
    ∃ w t, Reach manager G Created (w, t) ∧ P w t := by
  obtain ⟨⟨w, t⟩, hrun, hP⟩ := (Option.any_eq_true _ _).1 h
  exact ⟨w, t, .run hG (.init created_startWorld) hrun, of_decide_eq_true hP⟩

def Thread.ended : Thread Op Res → Bool
  | .returned => true
  | _ => false

/-- The next operations of the actor, all successful and at one time. -/
def operations (n : Nat) : List (Act Choice Input) := List.replicate n (.op { time := startTime })

/-- A cleanup that is asked for and succeeds at once. -/
def cleanupRun : List (Act Choice Input) :=
  [.env .lookup, .env .beginCleanup, .env (.enqueue 0), .take .command] ++ operations 24 ++ [.rest]

end PrivateVm.Session
