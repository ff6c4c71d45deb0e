import StorageFeatures.Probe

/-!
# A scripted plugin

`ScriptedPlugin` answers the four calls from a script: a call may hang, take its time, and fail.
A call has a deadline of its own; a call that is answered at its deadline is in time.
-/

namespace StorageFeatures

open Csi

/-- What happens to a call. -/
structure CallScript where
  hangs : Bool := false
  delay : Nat := 0
  fault : Option Fault := none

/-- After how long a call is over, and whether it was answered. -/
def CallScript.ends (s : CallScript) (timeout : Nat) : Nat × Bool :=
  if s.hangs || timeout < s.delay then (timeout, false) else (s.delay, true)

/-- A call is over when its time is, whatever the script says. -/
theorem CallScript.ends_le (s : CallScript) (timeout : Nat) : (s.ends timeout).1 ≤ timeout := by
  unfold ends
  split <;> simp_all

structure ScriptedPlugin where
  answers : Answers := {}
  scripts : Method → CallScript := fun _ => {}

namespace ScriptedPlugin

/-- Changes what happens to a call. -/
def setScript (p : ScriptedPlugin) (m : Method) (s : CallScript) : ScriptedPlugin :=
  { p with scripts := fun m' => if m' = m then s else p.scripts m' }

end ScriptedPlugin

/-- A probe whose call is under way. -/
structure OpenCall where
  probe : Probe
  due : Nat
  /-- Whether the call is answered when it is over. -/
  answered : Bool
  fault : Option Fault

/-- What a call comes to. -/
def OpenCall.result (c : OpenCall) (timeout : Nat) (answers : Answers) : Except Fault Probe.Next :=
  if c.answered then
    match c.fault with
    | some fault => .error fault
    | none => c.probe.take (answers.get c.probe.method)
  else .error (.rpcTimeout c.probe.method.name (timeout * 1000000))

end StorageFeatures
