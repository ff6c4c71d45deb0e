import StorageFeatures.Fault
import StorageFeatures.Queue.Backoff
import StorageFeatures.Version

/-!
# Settings of the controller

What the controller needs to know before it starts, how a run ends, and the gate on the version
of the cluster. All times are whole milliseconds.
-/

namespace StorageFeatures

/-- The oldest version whose storage interfaces the controller relies on. -/
def Version.minimal : Version := ⟨1, 20, 0⟩

/-- The version that a server reports. -/
def Version.read (raw : String) : Except Fault Version :=
  match parse raw with
  | .ok v => .ok v
  | .error e => .error (.invalidVersion (raw ++ ": " ++ e.message))

/-- The retry delays that apply if nothing else is set. -/
def BackoffConfig.standard : BackoffConfig := ⟨5, 1000000⟩

structure ControllerConfig where
  minVersion : Version := .minimal
  /-- How long to wait for the caches; without a limit the wait ends only by shutdown. -/
  syncTimeout : Option Nat := none
  backoff : BackoffConfig := .standard

/-- The last time that can be told: whole seconds are counted in 64 bits with a sign. -/
def lastInstant : Nat := UInt64.size / 2 * 1000 - 1

/-- How a run ends. -/
inductive Exit where
  /-- Shutdown was requested, before or after the workers started. -/
  | completed
  | versionTooOld (found required : Version)
  | cachesNotSynced
  | failed (fault : Fault)
  /-- The end of the wait for the caches cannot be told, and the run breaks off. -/
  | broken
  deriving DecidableEq, Repr

namespace ControllerConfig

/-- The reported version and whether it is new enough. -/
def checkVersion (config : ControllerConfig) (reported : Except Fault String) :
    Except Fault (Version × Bool) := do
  let found ← Version.read (← reported)
  return (found, found.atLeast config.minVersion)

/-- How a run ends at once on what the server reports; `none` lets it go on. -/
def refusal (config : ControllerConfig) (reported : Except Fault String) : Option Exit :=
  match config.checkVersion reported with
  | .error fault => some (.failed fault)
  | .ok (found, supported) =>
    if supported then none else some (.versionTooOld found config.minVersion)

/-- Whether the end of a wait that begins at some time can be told. -/
def canWait (config : ControllerConfig) (now : Nat) : Bool :=
  config.syncTimeout.all (now + · ≤ lastInstant)

/-- How a run ends before its first look at the caches; `none` lets it go on. The end of the wait is
worked out once the version has been accepted. -/
def obstacle (config : ControllerConfig) (now : Nat) (reported : Except Fault String) :
    Option Exit :=
  (config.refusal reported).or (if config.canWait now then none else some .broken)

/-- A run goes on if the version is accepted and the end of its wait can be told. -/
theorem obstacle_eq_none_iff {config : ControllerConfig} {now : Nat}
    {reported : Except Fault String} :
    config.obstacle now reported = none ↔
      config.refusal reported = none ∧ config.canWait now = true := by
  simp [obstacle]

/-- The gate opens only for a version that can be read and is new enough. -/
theorem refusal_eq_none_iff {config : ControllerConfig} {raw : String} :
    config.refusal (.ok raw) = none ↔
      ∃ v, Version.read raw = .ok v ∧ v.atLeast config.minVersion = true := by
  unfold refusal checkVersion
  cases h : Version.read raw with
  | error e => simp [bind, Except.bind, h]
  | ok v => simp [bind, Except.bind, pure, Except.pure, h]

end ControllerConfig

end StorageFeatures
