import StorageFeatures.Object.Metadata

/-!
# Kinds of objects

The four kinds that are watched, how the API server addresses them, and the class `Resource` of
their types.
-/

namespace StorageFeatures

/-- A kind of cluster-wide objects. -/
inductive Kind where
  | storageClass
  | snapshotClass
  | provisionerCapability
  | classCapability
  deriving DecidableEq, Repr, Inhabited

namespace Kind

/-- The kinds in the order in which the caches are listed. -/
def all : List Kind := [storageClass, snapshotClass, provisionerCapability, classCapability]

def name : Kind → String
  | storageClass => "StorageClass"
  | snapshotClass => "VolumeSnapshotClass"
  | provisionerCapability => "ProvisionerCapability"
  | classCapability => "StorageClassCapability"

/-- The group of the two kinds that this library defines. -/
def capabilityGroup : String := "storage.kubesphere.io"

/-- The version of the two kinds that this library defines. -/
def capabilityVersion : String := "v1alpha1"

def group : Kind → String
  | storageClass => "storage.k8s.io"
  | snapshotClass => "snapshot.storage.k8s.io"
  | provisionerCapability | classCapability => capabilityGroup

def version : Kind → String
  | storageClass | snapshotClass => "v1"
  | provisionerCapability | classCapability => capabilityVersion

def apiVersion (k : Kind) : String := k.group ++ "/" ++ k.version

def plural : Kind → String
  | storageClass => "storageclasses"
  | snapshotClass => "volumesnapshotclasses"
  | provisionerCapability => "provisionercapabilities"
  | classCapability => "storageclasscapabilities"

/-- The path under which the API server lists the kind. -/
def path (k : Kind) : String := "/apis/" ++ k.apiVersion ++ "/" ++ k.plural

/-- The kind with a name. -/
def ofName? (s : String) : Option Kind := all.find? fun k => k.name = s

@[simp] theorem ofName?_name (k : Kind) : ofName? k.name = some k := by
  cases k <;> rfl

/-- Kinds are told apart by their names. -/
theorem name_injective {k k' : Kind} (h : k.name = k'.name) : k = k' := by
  have := ofName?_name k
  rw [h, ofName?_name] at this
  exact (Option.some.inj this).symm

end Kind

/-- Types of objects of one kind. -/
class Resource (α : Type) where
  kind : Kind
  metadata : α → Metadata
  withMetadata : α → Metadata → α
  toJson : α → Json
  ofJson : Json.Reads α

namespace Resource

variable {α : Type} [Resource α]

/-- The name under which an object is cached. -/
def displayName (a : α) : String := (metadata a).displayName

/-- The revision that the server gave to this state of the object. -/
def resourceVersion (a : α) : Option String := (metadata a).resourceVersion

end Resource

end StorageFeatures
