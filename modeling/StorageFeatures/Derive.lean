import StorageFeatures.Fault
import StorageFeatures.Object.Capability
import StorageFeatures.Object.SnapshotClass
import StorageFeatures.Object.StorageClass

/-!
# The derived capability of a storage class

From a storage class, the capability of its provisioner and perhaps a snapshot class follows what
is available through the storage class: what the provisioner reports, but no expansion where the
class forbids it and no snapshots without a snapshot class of the same name that the provisioner
serves. `merge` puts that into a stored object and keeps its metadata (`merge_eq_ok`).
-/

namespace StorageFeatures

open Resource (displayName)

/-- Whether a snapshot class pairs with a storage class and is served by its provisioner. -/
def SnapshotClass.pairsWith (snapshots : SnapshotClass) (c : StorageClass)
    (p : ProvisionerCapability) : Bool :=
  displayName snapshots = displayName c && snapshots.driver = displayName p

namespace ClassSpec

/-- The spec that follows from the inputs. -/
def derive (c : StorageClass) (snapshots : Option SnapshotClass) (p : ProvisionerCapability) :
    ClassSpec :=
  let reported := p.spec.features
  { provisioner := c.provisioner
    features :=
      { topology := reported.topology
        volume :=
          { reported.volume with
            expand := if c.allowsExpansion then reported.volume.expand else .unknown }
        snapshot :=
          if snapshots.any fun s => s.pairsWith c p then reported.snapshot else {} } }

end ClassSpec

namespace ClassCapability

/-- The new object for a storage class, named after it. -/
def derive (c : StorageClass) (snapshots : Option SnapshotClass) (p : ProvisionerCapability) :
    ClassCapability :=
  { metadata := { name := some (displayName c) }, spec := .derive c snapshots p }

/-- The stored object with the spec that follows from the inputs. An object with another name
than the storage class is refused. -/
def merge (stored : ClassCapability) (c : StorageClass) (snapshots : Option SnapshotClass)
    (p : ProvisionerCapability) : Except Fault ClassCapability :=
  if displayName stored = displayName c then
    .ok { stored with spec := .derive c snapshots p }
  else .error (.nameMismatch (displayName stored) (displayName c))

@[simp] theorem displayName_derive (c : StorageClass) (snapshots : Option SnapshotClass)
    (p : ProvisionerCapability) : displayName (derive c snapshots p) = displayName c := rfl

/-- A created capability and a merged one have the same specification. -/
@[simp] theorem spec_derive (c : StorageClass) (snapshots : Option SnapshotClass)
    (p : ProvisionerCapability) :
    (derive c snapshots p).spec = ClassSpec.derive c snapshots p := rfl

/-- A merge succeeds where the names agree; it keeps the stored metadata and takes the rest anew. -/
theorem merge_eq_ok {stored merged : ClassCapability} {c : StorageClass}
    {snapshots : Option SnapshotClass} {p : ProvisionerCapability} :
    merge stored c snapshots p = .ok merged ↔
      displayName stored = displayName c ∧ merged.metadata = stored.metadata ∧
        merged.spec = .derive c snapshots p := by
  unfold merge
  obtain ⟨m, s⟩ := merged
  split <;> simp_all [eq_comm]

end ClassCapability

end StorageFeatures
