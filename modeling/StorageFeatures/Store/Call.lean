import StorageFeatures.Fault
import StorageFeatures.Object.Capability

/-!
# Calls on the store of capabilities

The seven operations on stored capability objects. A store reads both kinds by name, creates and
replaces both, and deletes capabilities of classes; how it does so is up to its implementation.
Whoever carries out these calls is a `CapabilityStore`.
-/

namespace StorageFeatures

/-- An operation of the store. -/
inductive StoreCall where
  | getProvisioner (name : String)
  | getCapability (name : String)
  | createProvisioner (object : ProvisionerCapability)
  | updateProvisioner (object : ProvisionerCapability)
  | createCapability (object : ClassCapability)
  | updateCapability (object : ClassCapability)
  | deleteCapability (name : String)
  deriving DecidableEq

/-- What a successful call answers. -/
inductive StoreAnswer where
  | provisioner (object : ProvisionerCapability)
  | capability (object : ClassCapability)
  /-- The object is absent, or deleted. -/
  | nothing
  deriving DecidableEq

/-- The capability of a provisioner that was found. -/
def StoreAnswer.provisioner? : StoreAnswer → Option ProvisionerCapability
  | provisioner p => some p
  | capability _ | nothing => none

/-- Whoever carries out calls. -/
abbrev CapabilityStore (m : Type → Type) := StoreCall → m (Except Fault StoreAnswer)

namespace StoreCall

/-- The name of the object that a call is about. -/
def name : StoreCall → String
  | getProvisioner name | getCapability name | deleteCapability name => name
  | createProvisioner p | updateProvisioner p => Resource.displayName p
  | createCapability c | updateCapability c => Resource.displayName c

/-- The kind of the object that a call is about. -/
def kind : StoreCall → Kind
  | getProvisioner _ | createProvisioner _ | updateProvisioner _ => .provisionerCapability
  | getCapability _ | createCapability _ | updateCapability _ | deleteCapability _ =>
    .classCapability

/-- Whether a call changes the store. -/
def isWrite : StoreCall → Bool
  | getProvisioner _ | getCapability _ => false
  | _ => true

end StoreCall

/-- The kinds of writes. -/
inductive WriteKind where
  | createProvisioner
  | updateProvisioner
  | createCapability
  | updateCapability
  | deleteCapability
  deriving DecidableEq, Repr

/-- The kind of write that a call is. -/
def StoreCall.writeKind? : StoreCall → Option WriteKind
  | createProvisioner _ => some .createProvisioner
  | updateProvisioner _ => some .updateProvisioner
  | createCapability _ => some .createCapability
  | updateCapability _ => some .updateCapability
  | deleteCapability _ => some .deleteCapability
  | getProvisioner _ | getCapability _ => none

end StorageFeatures
