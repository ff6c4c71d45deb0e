import StorageFeatures.Publisher.Basic
import StorageFeatures.Simulation.Clock
import StorageFeatures.Simulation.ScriptedPlugin

/-!
# A publisher on a virtual clock

`Sidecar` runs a publisher beside a scripted plugin. Its loop publishes at once and then after
every period; a tick is never cut short, and one that takes longer than the period delays those
after it. Shutdown ends the loop between two ticks. An interval of length zero is no interval, so
a loop with such a period breaks down at its start.
-/

namespace StorageFeatures

open Csi

/-- Where the loop stands. -/
inductive LoopPhase where
  | idle
  | resting (nextTick : Nat)
  | ticking (call : OpenCall) (nextTick : Nat)
  | stopped
  | broken

structure Sidecar where
  publisher : Publisher
  plugin : ScriptedPlugin := {}
  /-- The time between two ticks. -/
  period : Nat := 60000
  /-- The deadline of each call. -/
  timeout : Nat := 1000
  now : Nat := 0
  /-- The calls that the plugin received. -/
  received : List Method := []
  phase : LoopPhase := .idle
  cancelled : Bool := false

namespace Sidecar

/-! ### Calls -/

/-- Makes the next call of a probe. -/
def call (s : Sidecar) (probe : Probe) : Sidecar × OpenCall :=
  let script := s.plugin.scripts probe.method
  let (delay, answered) := script.ends s.timeout
  ({ s with received := s.received ++ [probe.method] },
   ⟨probe, s.now + delay, answered, script.fault⟩)

/-- A call is over: another one follows, or the probe has ended. -/
def resolve (s : Sidecar) (c : OpenCall) :
    Sidecar × Except (Except Fault ProvisionerCapability) OpenCall :=
  match c.result s.timeout s.plugin.answers with
  | .error fault => (s, .error (.error fault))
  | .ok (.done capability) => (s, .error (.ok capability))
  | .ok (.call probe) =>
    let (s, c) := s.call probe
    (s, .ok c)

/-! ### The loop -/

/-- How late a tick may be without moving the ticks after it. -/
def tolerance : Nat := 5

/-- When the tick after one that was due at some time is due. -/
def tickAfter (s : Sidecar) (due : Nat) : Nat :=
  if due + tolerance < s.now then s.now + s.period else due + s.period

/-- What the loop does at this time; `none` if it has to wait. -/
def step? (s : Sidecar) : Option Sidecar :=
  match s.phase with
  | .resting due =>
    if s.cancelled then some { s with phase := .stopped }
    else if due ≤ s.now then
      let nextTick := s.tickAfter due
      let (s, c) := s.call .pluginInfo
      some { s with phase := .ticking c nextTick }
    else none
  | .ticking c nextTick =>
    if c.due ≤ s.now then
      match s.resolve c with
      | (s, .ok c) => some { s with phase := .ticking c nextTick }
      | (s, .error probed) =>
        some { s with publisher := s.publisher.tick probed, phase := .resting nextTick }
    else none
  | _ => none

/-- Lets the loop run at this time, for at most so many steps. -/
def runSteps : Nat → Sidecar → Sidecar
  | 0, s => s
  | steps + 1, s =>
    match s.step? with
    | some s => runSteps steps s
    | none => s

/-- Lets the loop run until it has to wait. A tick has five steps, and no more ticks can be due
than the tolerance allows. -/
def settle (s : Sidecar) : Sidecar := runSteps (6 * (tolerance + 2)) s

/-- Starts the loop. -/
def start (s : Sidecar) : Sidecar :=
  { s with phase := if s.period = 0 then .broken else .resting s.now }

/-- Requests shutdown. -/
def cancel (s : Sidecar) : Sidecar := { s with cancelled := true }

/-! ### The clock -/

/-- When the loop goes on. -/
def nextTime? (s : Sidecar) : Option Nat :=
  match s.phase with
  | .resting due => some due
  | .ticking c _ => some c.due
  | _ => none

instance : Clocked Sidecar where
  now := now
  atTime s time := { s with now := time }
  nextTime? := nextTime?
  wake s time := { s with now := max time s.now }.settle

/-- Moves the clock to a time. -/
def advanceTo (s : Sidecar) (time : Nat) : Sidecar := Clocked.advanceTo s time

/-! ### Direct use -/

/-- Waits for a probe of its own, for at most so many calls. -/
def await : Nat → Sidecar → OpenCall → Sidecar × Except Fault ProvisionerCapability
  | 0, s, c => (s, .error (.rpcTimeout c.probe.method.name (s.timeout * 1000000)))
  | calls + 1, s, c =>
    let s := if c.due ≤ s.now then s else s.advanceTo c.due
    match s.resolve c with
    | (s, .error probed) => (s, probed)
    | (s, .ok c) => await calls s c

/-- Probes the plugin. -/
def probe (s : Sidecar) : Sidecar × Except Fault ProvisionerCapability :=
  let (s, c) := s.call .pluginInfo
  await 4 s c

/-- Probes the plugin and publishes what was found. -/
def syncOnce (s : Sidecar) : Sidecar × Except Fault Publish.Outcome :=
  let (s, probed) := s.probe
  let (publisher, result) := s.publisher.publish probed
  ({ s with publisher }, result)

end Sidecar

end StorageFeatures
