import StorageFeatures.Metrics.Basic
import StorageFeatures.Probe
import StorageFeatures.Store.Memory

/-!
# Publishing a plugin's capability

A publisher keeps the stored capability of one plugin equal to what a probe finds. `Publish.check`
and `Publish.decide` say what has to be written, `Publish.sync` does it on any store, and
`Publisher.publish` on the one in memory. The publisher is ready once it has published, and stays
ready.
-/

namespace StorageFeatures

open Resource (displayName)

namespace Publish

/-- What publishing comes to. -/
inductive Outcome where
  | created
  | updated
  | unchanged
  deriving DecidableEq, Repr

def Outcome.name : Outcome → String
  | created => "created"
  | updated => "updated"
  | unchanged => "unchanged"

/-- Where a driver name is expected, another plugin is not published. -/
def check (expected : Option String) (probed : ProvisionerCapability) : Except Fault Unit :=
  match expected with
  | none => .ok ()
  | some driver =>
    if driver = probed.pluginName then .ok ()
    else .error (.driverNameMismatch driver probed.pluginName)

/-- What has to be written over what is stored, and what that is. -/
def decide (probed : ProvisionerCapability) :
    Option ProvisionerCapability → Outcome × Option StoreCall
  | none => (.created, some (.createProvisioner probed))
  | some stored =>
    if stored.spec = probed.spec then (.unchanged, none)
    else (.updated, some (.updateProvisioner { stored with spec := probed.spec }))

/-- Publishes what a probe found: looks up what is stored and makes the write that is missing. -/
def sync {m : Type → Type} [Monad m] (store : CapabilityStore m) (expected : Option String) :
    Except Fault ProvisionerCapability → m (Except Fault Outcome)
  | .error fault => return .error fault
  | .ok probed =>
    match check expected probed with
    | .error fault => return .error fault
    | .ok () => do
      match ← store (.getProvisioner (displayName probed)) with
      | .error fault => return .error fault
      | .ok found =>
        match decide probed found.provisioner? with
        | (outcome, none) => return .ok outcome
        | (outcome, some call) => return (← store call).map fun _ => outcome

/-- The label under which a tick is counted. -/
def label : Except Fault Outcome → String
  | .ok outcome => outcome.name
  | .error (.driverNameMismatch ..) => "skipped"
  | .error _ => "error"

end Publish

structure Publisher where
  /-- The name that the plugin has to have, if it matters. -/
  driverName : Option String := none
  store : MemoryStore := {}
  caches : Caches := {}
  metrics : Option Metrics := none
  /-- Whether something was published. -/
  ready : Bool := false

namespace Publisher

/-- The stored capability of a name. -/
def stored (p : Publisher) (name : String) : Option ProvisionerCapability :=
  p.caches.provisioners.peek name

/-- Counts a probe. -/
def countProbe (p : Publisher) (probed : Except Fault ProvisionerCapability) : Publisher :=
  let label := if probed.isOk then "success" else "error"
  { p with metrics := p.metrics.map fun m => m.increment .probe label }

/-- Publishes what a probe found. -/
def publish (p : Publisher) (probed : Except Fault ProvisionerCapability) :
    Publisher × Except Fault Publish.Outcome :=
  let p := p.countProbe probed
  let (result, store, caches) :=
    (Publish.sync MemoryStore.serve p.driverName probed).run (p.store, p.caches)
  ({ p with store, caches, ready := p.ready || result.isOk }, result)

/-- Publishes in a tick of the loop, which is counted. -/
def tick (p : Publisher) (probed : Except Fault ProvisionerCapability) : Publisher :=
  let (p, result) := p.publish probed
  { p with metrics := p.metrics.map fun m => m.increment .publish (Publish.label result) }

/-- Readiness is never taken back. -/
theorem ready_publish {p : Publisher} (h : p.ready = true)
    (probed : Except Fault ProvisionerCapability) : (p.publish probed).1.ready = true := by
  show (p.ready || _) = true
  rw [h, Bool.true_or]

end Publisher

end StorageFeatures
