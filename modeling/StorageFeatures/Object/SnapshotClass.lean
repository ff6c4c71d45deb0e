import StorageFeatures.Object.Kind

/-!
# Snapshot classes

The policy that pairs with the storage class of the same name and says which driver takes the
snapshots.
-/

namespace StorageFeatures

open Json

structure SnapshotClass where
  metadata : Metadata := {}
  driver : String
  deletionPolicy : Option String := none
  parameters : Option (NameMap String) := none
  deriving DecidableEq

namespace SnapshotClass

def toJson (c : SnapshotClass) : Json := .object (
  Json.member? "deletionPolicy" .string c.deletionPolicy ++
  [("driver", .string c.driver), ("metadata", c.metadata.toJson)] ++
  Json.member? "parameters" ofNames c.parameters)

def shape : String := "struct " ++ Kind.snapshotClass.name ++ " with 4 elements"

def ofJson : Reads SnapshotClass
  | .object ms => do
    let deletionPolicy ← field ms "deletionPolicy" (readOption readString)
    let driver ← field ms "driver" readString
    let metadata ← field ms "metadata" Metadata.ofJson
    let parameters ← field ms "parameters" (readOption readNames)
    let driver ← require "driver" driver
    return ⟨metadata.getD {}, driver, deletionPolicy.join, parameters.join⟩
  | .array items => do
    let metadata ← item items 0 Metadata.ofJson
    let driver ← item items 1 readString
    let driver ← requireItem 1 shape driver
    let deletionPolicy ← item items 2 (readOption readString)
    let parameters ← item items 3 (readOption readNames)
    noMoreItems items 4
    return ⟨metadata.getD {}, driver, deletionPolicy.join, parameters.join⟩
  | j => .error (.wrongType j.found ("struct " ++ Kind.snapshotClass.name))

instance : Resource SnapshotClass where
  kind := .snapshotClass
  metadata := metadata
  withMetadata c m := { c with metadata := m }
  toJson := toJson
  ofJson := ofJson

end SnapshotClass

end StorageFeatures
