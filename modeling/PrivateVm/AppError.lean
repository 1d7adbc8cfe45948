import Mathlib.Tactic.TypeStar

set_option autoImplicit false

/-! # Application errors (`internal/apperror`, `internal/exitcode`)

The errors that packages return to their callers. An operation outside a package fails with a
`Fault`, of which the code only ever asks whether it is an error of a context.
-/

namespace PrivateVm

/-- The exit codes that the modelled packages use. -/
inductive ExitCode where
  | network
  | storage
  | torrent
  | cleanup
  deriving DecidableEq

/-- An error with the error value of type `σ` that it wraps. -/
structure AppError (σ : Type) where
  code : String
  exitCode : ExitCode
  message : String
  remediation : String
  cause : σ
  deriving DecidableEq

/-- How an operation fails: its context was cancelled, its deadline passed, or otherwise. -/
inductive Fault where
  | canceled
  | deadlineExceeded
  | other
  deriving DecidableEq

/-- `errors.Is` for one of the two errors of a context. -/
def Fault.isContextError : Fault → Bool
  | .canceled | .deadlineExceeded => true
  | .other => false

/-- An error a method returns: one of its package, or one it has passed on. -/
inductive Err (σ : Type) where
  | app (e : AppError σ)
  | cause (f : Fault)
  deriving DecidableEq

end PrivateVm
