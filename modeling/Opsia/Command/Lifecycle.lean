import Mathlib.Tactic.Common

/-!
# The command lifecycle vocabulary

`domains/command/lifecycle.py`: the statuses of a logical command and of one of
its attempts, the declared transition table, and the map from a status to the
kind of the browser-visible operation event. These are pure tables; locking and
persistence belong to the repository (`Command/Repository.lean`).
-/

namespace Opsia

/-- `CommandLifecycleStatus`: the status of a logical command. -/
inductive CommandStatus : Type where
  | queued
  | leased
  | running
  | cancelRequested
  | cancelling
  | completed
  | failed
  | cancelled
  deriving DecidableEq, Repr

/-- `CommandAttemptStatus`: the status of one execution attempt. -/
inductive CommandAttemptStatus : Type where
  | queued
  | leased
  | running
  | completed
  | failed
  | cancelled
  | expired
  deriving DecidableEq, Repr

/-- `OperationEventKind`: the kind of an operation event. -/
inductive OperationEventKind : Type where
  | progress
  | log
  | completed
  | failed
  | cancelled
  deriving DecidableEq, Repr

/-- `kind in {"completed", "failed", "cancelled"}`: the event closes its
stream. -/
def OperationEventKind.terminal : OperationEventKind → Bool
  | .completed | .failed | .cancelled => true
  | .progress | .log => false

/-- `command_status_is_terminal`: `COMPLETED`, `FAILED`, `CANCELLED`. -/
def commandStatusIsTerminal : CommandStatus → Bool
  | .completed | .failed | .cancelled => true
  | .queued | .leased | .running | .cancelRequested | .cancelling => false

/-- `command_status_is_active`: the status counts against the capacity of its
action. -/
def commandStatusIsActive : CommandStatus → Bool
  | .queued | .leased | .running | .cancelRequested | .cancelling => true
  | .completed | .failed | .cancelled => false

theorem commandStatusIsActive_eq (status : CommandStatus) :
    commandStatusIsActive status = !commandStatusIsTerminal status := by
  cases status <;> rfl

/-- The attempt is closed: it is neither queued, leased nor running. -/
def CommandAttemptStatus.isTerminal : CommandAttemptStatus → Bool
  | .completed | .failed | .cancelled | .expired => true
  | .queued | .leased | .running => false

def allowedTransitions : CommandStatus → List CommandStatus
  | .queued => [.leased, .cancelled, .failed]
  | .leased => [.queued, .running, .cancelRequested, .cancelled, .failed]
  | .running => [.cancelRequested, .completed, .failed]
  | .cancelRequested => [.cancelling, .cancelled, .completed, .failed]
  | .cancelling => [.cancelled, .completed, .failed]
  -- a manual retry creates a new attempt but keeps the immutable command id
  | .failed => [.queued]
  | .completed => []
  | .cancelled => []

/-- `command_transition_allowed`: keeping the status is always allowed. -/
def commandTransitionAllowed (current target : CommandStatus) : Bool :=
  decide (current = target) || decide (target ∈ allowedTransitions current)

@[simp] theorem commandTransitionAllowed_self (status : CommandStatus) :
    commandTransitionAllowed status status = true := by
  simp [commandTransitionAllowed]

/-- `command_terminal_event_kind`: a failure that may still be retried is a
progress fact; a status that is not terminal cannot close the stream (the source
raises `ValueError`, here `none`). -/
def commandTerminalEventKind (status : CommandStatus) (final : Bool) :
    Option OperationEventKind :=
  if final then
    match status with
    | .completed => some .completed
    | .cancelled => some .cancelled
    | .failed => some .failed
    | .queued | .leased | .running | .cancelRequested | .cancelling => none
  else some .progress

theorem commandTerminalEventKind_final {status : CommandStatus} {kind : OperationEventKind}
    (h : commandTerminalEventKind status true = some kind) :
    commandStatusIsTerminal status = true ∧ kind.terminal = true := by
  cases status <;> simp [commandTerminalEventKind] at h <;> subst h <;> exact ⟨rfl, rfl⟩

/-- The status an attempt takes when its agent reports `status`; the five
statuses of a command that is still active never reach an attempt this way. -/
def CommandStatus.attemptStatus : CommandStatus → Option CommandAttemptStatus
  | .completed => some .completed
  | .failed => some .failed
  | .cancelled => some .cancelled
  | .queued | .leased | .running | .cancelRequested | .cancelling => none

end Opsia
