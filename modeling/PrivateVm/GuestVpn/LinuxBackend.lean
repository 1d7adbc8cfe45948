import PrivateVm.GuestVpn.Model
import PrivateVm.Basic.Method
import PrivateVm.Basic.Machine

set_option autoImplicit false

/-! # The Linux backend (`internal/guestvpn/backend.go`)

Each method of `LinuxBackend` holds the backend's lock throughout. A command may fail before or
after it takes effect. Of the kernel the link of the tunnel and the table of the kill switch are
modelled, and of the texts passed to the commands only that preparing one can fail.
-/

namespace PrivateVm.GuestVpn

open Program Method

/-! ## Commands -/

/-- The link `proton0` and the table `private_vm_guest`. -/
structure Kernel where
  link : Bool
  table : Bool
  deriving DecidableEq

inductive Command where
  | killSwitchRules
  | nftLoad
  | underlayCommands
  | underlayBatch
  | linkAdd
  | wireGuardConfig
  | setconf
  | tunnelCommands
  | tunnelBatch
  | dnsConfigure
  | dnsClear
  | linkDelete
  | deleteTable
  deriving DecidableEq

/-- What a command does to the kernel. Loading the rules adds the table if there is none. -/
def Command.effect : Command → Kernel → Kernel
  | .nftLoad, k => { k with table := true }
  | .linkAdd, k => { k with link := true }
  | .linkDelete, k => { k with link := false }
  | .deleteTable, k => { k with table := false }
  | _, k => k

/-- How a command ends: with an error or not, and whether it took effect in spite of one. -/
structure Ending where
  error : Option Error
  tookEffect : Bool
  deriving DecidableEq

structure Run where
  command : Command
  error : Option Error
  before : Kernel
  after : Kernel
  deriving DecidableEq

/-- The kernel, and the commands run on it, newest first. -/
structure Shell where
  kernel : Kernel
  runs : List Run

def Ending.result (x : Ending) : Except Error Unit :=
  match x.error with
  | none => .ok ()
  | some e => .error e

def Ending.apply (x : Ending) (command : Command) (k : Kernel) : Kernel :=
  if x.error = none ∨ x.tookEffect then command.effect k else k

def execCommand (command : Command) (x : Ending) (sh : Shell) : Except Error Unit × Shell :=
  let after := x.apply command sh.kernel
  (x.result, ⟨after, ⟨command, x.error, sh.kernel, after⟩ :: sh.runs⟩)

/-! ## The backend -/

structure LinuxBackend where
  killArmed : Bool
  tunnel : Bool
  deriving DecidableEq

abbrev BackendAction (α : Type) : Type :=
  Method Command (fun _ => Except Error Unit) Error LinuxBackend α

/-- A command, with what becomes of its error. -/
def ask (wrap : Error → Error) (command : Command) : BackendAction Unit := do
  match ← (Method.invoke command : BackendAction _) with
  | .ok () => return ()
  | .error e => throw (wrap e)

/-- A command whose error is returned. -/
def run : Command → BackendAction Unit := ask fun e => e

/-- The text for a command, whose error is not. -/
def prepare : Command → BackendAction Unit := ask fun _ => invalidRequest

namespace LinuxBackend

def armKillSwitch : BackendAction Unit := do
  let backend ← get
  if backend.killArmed ∨ backend.tunnel then throw invalidRequest
  else
    prepare .killSwitchRules
    run .nftLoad
    modify ({ · with killArmed := true })

def configureTunnel (underlay : Underlay) : BackendAction Unit := do
  match underlay.validate with
  | .error _ => throw invalidRequest
  | .ok () =>
    let backend ← get
    if !backend.killArmed ∨ backend.tunnel then throw invalidRequest
    else
      prepare .underlayCommands
      run .underlayBatch
      -- from here on the link may be there, whatever the command for it returns
      modify ({ · with tunnel := true })
      run .linkAdd
      run .wireGuardConfig
      run .setconf
      prepare .tunnelCommands
      run .tunnelBatch
      run .dnsConfigure

def removeTunnel : BackendAction Unit := do
  let backend ← get
  if !backend.tunnel then return ()
  else
    run .dnsClear
    run .linkDelete
    modify ({ · with tunnel := false })

def removeKillSwitch : BackendAction Unit := do
  let backend ← get
  if backend.tunnel then throw cleanupIncomplete
  else if !backend.killArmed then return ()
  else
    run .deleteTable
    modify ({ · with killArmed := false })

end LinuxBackend

/-! ## Rules for commands -/

section

variable {H : Type} {exec : Command → Ending → H → Except Error Unit × H}
  {fine : Command → Ending → H → Bool} {backend : LinuxBackend} {h : H}
  {Q : Except Error Unit → LinuxBackend → H → Prop} {command : Command} {wrap : Error → Error}

theorem along_ask
    (hok : ∀ x, fine command x h = true → x.error = none → Q (.ok ()) backend (exec command x h).2)
    (herr : ∀ x e, fine command x h = true → x.error = some e →
      Q (.error (wrap e)) backend (exec command x h).2)
    (hans : ∀ x, (exec command x h).1 = x.result := by intros; rfl) :
    Along exec fine (ask wrap command) Q backend h := by
  refine along_invoke_bind fun x hx => ?_
  rw [hans x]
  cases he : x.error with
  | none =>
    simp only [Ending.result, he]
    exact along_pure (hok x hx he)
  | some e =>
    simp only [Ending.result, he]
    exact along_throw (herr x e hx he)

theorem along_ask_bind {f : Unit → BackendAction Unit}
    (hok : ∀ x, fine command x h = true → x.error = none →
      Along exec fine (f ()) Q backend (exec command x h).2)
    (herr : ∀ x e, fine command x h = true → x.error = some e →
      Q (.error (wrap e)) backend (exec command x h).2)
    (hans : ∀ x, (exec command x h).1 = x.result := by intros; rfl) :
    Along exec fine (ask wrap command >>= f) Q backend h :=
  along_bind (along_ask hok herr hans)

/-- The flags after the last command of a method, which are set only if it succeeds. -/
def Ending.settle (x : Ending) (set : LinuxBackend → LinuxBackend) (backend : LinuxBackend) :
    LinuxBackend :=
  if x.error = none then set backend else backend

/-- **A property of flags and outside** that the commands for the tunnel keep. -/
structure Preserved (exec : Command → Ending → H → Except Error Unit × H)
    (fine : Command → Ending → H → Bool) (J : LinuxBackend → H → Prop) : Prop where
  answers : ∀ command x h, (exec command x h).1 = x.result
  still : ∀ {command}, (∀ k, command.effect k = k) → ∀ x {b h}, J b h → J b (exec command x h).2
  added : ∀ x {b h}, fine .linkAdd x h = true → J b h →
    J { b with tunnel := true } (exec .linkAdd x h).2
  deleted : ∀ x {b h}, fine .linkDelete x h = true → J b h →
    J (x.settle ({ · with tunnel := false }) b) (exec .linkDelete x h).2

namespace Preserved

variable {J : LinuxBackend → H → Prop} (p : Preserved exec fine J)

include p

theorem last {set : LinuxBackend → LinuxBackend}
    (hset : ∀ x, fine command x h = true → J (x.settle set backend) (exec command x h).2) :
    Along exec fine (run command >>= fun _ => modify set) (fun _ => J) backend h := by
  refine along_ask_bind (fun x hx hok => along_modify ?_) (fun x e hx herr => ?_)
    fun x => p.answers command x h
  · have hend := hset x hx
    rwa [Ending.settle, if_pos hok] at hend
  · have hend := hset x hx
    rwa [Ending.settle, if_neg (by simp [herr])] at hend

variable (hJ : J backend h)

include hJ

/-- A command without effect, and what follows it. -/
theorem ask {f : Unit → BackendAction Unit} (hstill : ∀ k, command.effect k = k)
    (hf : ∀ h, J backend h → Along exec fine (f ()) (fun _ => J) backend h) :
    Along exec fine (ask wrap command >>= f) (fun _ => J) backend h :=
  along_ask_bind (fun x _ _ => hf _ (p.still hstill x hJ)) (fun x _ _ _ => p.still hstill x hJ)
    fun x => p.answers command x h

theorem armKillSwitch (hload : ∀ x h, fine .nftLoad x h = true → J backend h →
      J (x.settle ({ · with killArmed := true }) backend) (exec .nftLoad x h).2) :
    Along exec fine LinuxBackend.armKillSwitch (fun _ => J) backend h := by
  refine along_get_bind ?_
  split
  · exact along_throw hJ
  · exact p.ask hJ (fun _ => rfl) fun h hJ => p.last fun x hx => hload x h hx hJ

theorem configureTunnel {underlay} :
    Along exec fine (LinuxBackend.configureTunnel underlay) (fun _ => J) backend h := by
  unfold LinuxBackend.configureTunnel
  split
  · exact along_throw hJ
  refine along_get_bind ?_
  split
  · exact along_throw hJ
  refine p.ask hJ (fun _ => rfl) fun h hJ => p.ask hJ (fun _ => rfl) fun h hJ => ?_
  -- the flag is set before the link can be there
  have hadd : ∀ x, fine .linkAdd x h = true → J _ (exec .linkAdd x h).2 :=
    fun x hx => p.added x hx hJ
  refine along_modify_bind (along_ask_bind (fun x hx _ => ?_) (fun x _ hx _ => hadd x hx)
    fun x => p.answers _ x h)
  refine p.ask (hadd x hx) (fun _ => rfl) fun h hJ => p.ask hJ (fun _ => rfl) fun h hJ => ?_
  refine p.ask hJ (fun _ => rfl) fun h hJ => p.ask hJ (fun _ => rfl) fun h hJ => ?_
  have hlast : ∀ x, J _ (exec .dnsConfigure x h).2 := fun x => p.still (fun _ => rfl) x hJ
  exact along_ask (fun x _ _ => hlast x) (fun x _ _ _ => hlast x) fun x => p.answers _ x h

theorem removeTunnel : Along exec fine LinuxBackend.removeTunnel (fun _ => J) backend h := by
  refine along_get_bind ?_
  split
  · exact along_pure hJ
  · exact p.ask hJ (fun _ => rfl) fun h hJ => p.last fun x hx => p.deleted x hx hJ

end Preserved

end

variable {command : Command}

/-- A command without effect leaves the kernel alone, however it ends. -/
theorem execCommand_still {sh} (h : command.effect sh.kernel = sh.kernel) (x : Ending) :
    (execCommand command x sh).2.kernel = sh.kernel := by
  simp only [execCommand, Ending.apply]
  split
  · exact h
  · rfl

/-- A command that ends without an error has taken effect. -/
theorem execCommand_effect {x} (h : x.error = none) (sh : Shell) :
    (execCommand command x sh).2.kernel = command.effect sh.kernel :=
  if_pos (.inl h)

/-! ## Runs of the backend -/

inductive BackendCall where
  | armKillSwitch
  | configureTunnel (underlay : Underlay)
  | removeTunnel
  | removeKillSwitch

def BackendCall.method : BackendCall → BackendAction Unit
  | .armKillSwitch => LinuxBackend.armKillSwitch
  | .configureTunnel underlay => LinuxBackend.configureTunnel underlay
  | .removeTunnel => LinuxBackend.removeTunnel
  | .removeKillSwitch => LinuxBackend.removeKillSwitch

structure Host where
  backend : LinuxBackend
  kernel : Kernel
  deriving DecidableEq

def Host.fresh : Host := ⟨⟨false, false⟩, ⟨false, false⟩⟩

/-- What a call does: its result, the commands it has run, and what it leaves. -/
def Host.perform (s : Host) (c : BackendCall) (endings : Nat → Ending) :
    Except Error Unit × List Run × Host :=
  let o := Method.outcome execCommand endings c.method s.backend ⟨s.kernel, []⟩
  (o.1.1, o.2.runs, ⟨o.1.2, o.2.kernel⟩)

structure BackendMove where
  call : BackendCall
  endings : Nat → Ending

/-- All histories of calls of a new backend. -/
def backendMachine : Machine Host BackendMove where
  init s := s = .fresh
  step move s := (s.perform move.call move.endings).2.2

end PrivateVm.GuestVpn
