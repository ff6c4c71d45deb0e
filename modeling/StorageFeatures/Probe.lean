import StorageFeatures.Csi.Features
import StorageFeatures.Csi.Message
import StorageFeatures.Object.Capability

/-!
# Probing a plugin

A probe asks a plugin four questions in a fixed order and puts the answers together. The first
fault ends it, and a plugin without a name is refused before the second question. `Probe` is a
probe under way with its answers so far; `Probe.run` makes all calls at once.
-/

namespace StorageFeatures

open Csi

/-- What a plugin's answers say about it. -/
def ProvisionerCapability.ofAnswers (a : Answers) : ProvisionerCapability :=
  { metadata := { name := some a.identity.name }
    spec :=
      { plugin := ⟨a.identity.name, a.identity.vendorVersion⟩
        features := featureSet a.plugin a.controller a.node } }

/-- A probe that waits for the answer to a call. -/
inductive Probe where
  | pluginInfo
  | pluginCapabilities (identity : PluginIdentity)
  | controllerCapabilities (identity : PluginIdentity) (plugin : PluginEntries)
  | nodeCapabilities (identity : PluginIdentity) (plugin : PluginEntries)
      (controller : RpcEntries)
  deriving DecidableEq

namespace Probe

/-- The call that waits for its answer. -/
def method : Probe → Method
  | pluginInfo => .pluginInfo
  | pluginCapabilities _ => .pluginCapabilities
  | controllerCapabilities .. => .controllerCapabilities
  | nodeCapabilities .. => .nodeCapabilities

/-- What an answer leads to. -/
inductive Next where
  | call (probe : Probe)
  | done (capability : ProvisionerCapability)

/-- Takes the answer to the call. -/
def take : (p : Probe) → p.method.Answer → Except Fault Next
  | pluginInfo, identity =>
    if identity.name.isEmpty then
      .error (.invalidObject "GetPluginInfoResponse" "plugin reported an empty name")
    else .ok (.call (pluginCapabilities identity))
  | pluginCapabilities identity, plugin => .ok (.call (controllerCapabilities identity plugin))
  | controllerCapabilities identity plugin, controller =>
    .ok (.call (nodeCapabilities identity plugin controller))
  | nodeCapabilities identity plugin controller, node =>
    .ok (.done (.ofAnswers { identity, plugin, controller, node }))

/-- The number of calls that are left. -/
def callsLeft : Probe → Nat
  | pluginInfo => 4
  | pluginCapabilities _ => 3
  | controllerCapabilities .. => 2
  | nodeCapabilities .. => 1

/-- Every answer that leads to another call brings the probe one call nearer to its end. -/
theorem callsLeft_of_take {p q : Probe} {a : p.method.Answer}
    (h : p.take a = .ok (.call q)) : q.callsLeft + 1 = p.callsLeft := by
  cases p with
  | pluginInfo =>
    simp only [take] at h
    split at h
    · simp at h
    · cases h; rfl
  | pluginCapabilities => cases h; rfl
  | controllerCapabilities => cases h; rfl
  | nodeCapabilities => simp [take] at h

/-- Makes the calls that are left; answers also which calls were made. -/
def finish (client : Client) (p : Probe) : List Method × Except Fault ProvisionerCapability :=
  match _h : (client p.method).bind p.take with
  | .error fault => ([p.method], .error fault)
  | .ok (.done capability) => ([p.method], .ok capability)
  | .ok (.call q) =>
    let (calls, result) := finish client q
    (p.method :: calls, result)
termination_by p.callsLeft
decreasing_by
  cases hc : client p.method with
  | error e => simp [hc, Except.bind] at _h
  | ok a =>
    have := callsLeft_of_take (p := p) (a := a) (q := q) (by simpa [hc, Except.bind] using _h)
    omega

/-- Makes all calls. -/
def run (client : Client) : List Method × Except Fault ProvisionerCapability :=
  finish client pluginInfo

end Probe

end StorageFeatures
