import StorageFeatures.Feature.Json
import StorageFeatures.Object.Kind

/-!
# Capability objects

`ProvisionerCapability` is what a plugin reports about itself, published under the plugin's name.
`ClassCapability` is what is available through the storage class of the same name. Both have
metadata and a spec; in a spec the features may be left out and are then the default ones.
-/

namespace StorageFeatures

open Json

/-- The identity of a plugin. -/
structure PluginInfo where
  name : String
  version : String
  deriving DecidableEq, Repr

structure ProvisionerSpec where
  plugin : PluginInfo
  features : FeatureSet := {}
  deriving DecidableEq, Repr

structure ProvisionerCapability where
  metadata : Metadata
  spec : ProvisionerSpec
  deriving DecidableEq

structure ClassSpec where
  provisioner : String
  features : FeatureSet := {}
  deriving DecidableEq, Repr

structure ClassCapability where
  metadata : Metadata
  spec : ClassSpec
  deriving DecidableEq

namespace PluginInfo

def toJson (p : PluginInfo) : Json :=
  .object [("name", .string p.name), ("version", .string p.version)]

def ofJson : Reads PluginInfo
  | .object ms => do
    let name ← field ms "name" readString
    let version ← field ms "version" readString
    let name ← require "name" name
    let version ← require "version" version
    return ⟨name, version⟩
  | .array items => do
    let shape := "struct PluginInfo with 2 elements"
    let name ← requireItem 0 shape (← item items 0 readString)
    let version ← requireItem 1 shape (← item items 1 readString)
    noMoreItems items 2
    return ⟨name, version⟩
  | j => .error (.wrongType j.found "struct PluginInfo")

@[simp] theorem ofJson_toJson (p : PluginInfo) : ofJson p.toJson = .ok p := by
  simp [toJson, ofJson, field, occurrences, lookup, readString]
  rfl

end PluginInfo

namespace ProvisionerSpec

def toJson (s : ProvisionerSpec) : Json :=
  .object [("features", s.features.toJson), ("pluginInfo", s.plugin.toJson)]

def ofJson : Reads ProvisionerSpec
  | .object ms => do
    let features ← field ms "features" FeatureSet.ofJson
    let plugin ← field ms "pluginInfo" PluginInfo.ofJson
    let plugin ← require "pluginInfo" plugin
    return ⟨plugin, features.getD {}⟩
  | .array items => do
    let plugin ← requireItem 0 "struct ProvisionerCapabilitySpec with 2 elements"
      (← item items 0 PluginInfo.ofJson)
    let features ← item items 1 FeatureSet.ofJson
    noMoreItems items 2
    return ⟨plugin, features.getD {}⟩
  | j => .error (.wrongType j.found "struct ProvisionerCapabilitySpec")

@[simp] theorem ofJson_toJson (s : ProvisionerSpec) : ofJson s.toJson = .ok s := by
  simp [toJson, ofJson, field, occurrences, lookup]
  rfl

end ProvisionerSpec

namespace ClassSpec

def toJson (s : ClassSpec) : Json :=
  .object [("features", s.features.toJson), ("provisioner", .string s.provisioner)]

def ofJson : Reads ClassSpec
  | .object ms => do
    let features ← field ms "features" FeatureSet.ofJson
    let provisioner ← field ms "provisioner" readString
    let provisioner ← require "provisioner" provisioner
    return ⟨provisioner, features.getD {}⟩
  | .array items => do
    let provisioner ← requireItem 0 "struct StorageClassCapabilitySpec with 2 elements"
      (← item items 0 readString)
    let features ← item items 1 FeatureSet.ofJson
    noMoreItems items 2
    return ⟨provisioner, features.getD {}⟩
  | j => .error (.wrongType j.found "struct StorageClassCapabilitySpec")

@[simp] theorem ofJson_toJson (s : ClassSpec) : ofJson s.toJson = .ok s := by
  simp [toJson, ofJson, field, occurrences, lookup, readString]
  rfl

end ClassSpec

/-! ### Objects with metadata and a spec -/

/-- Writes an object of a capability kind. -/
def capabilityToJson (kind : Kind) (metadata : Metadata) (spec : Json) : Json := .object [
  ("apiVersion", .string kind.apiVersion), ("kind", .string kind.name),
  ("metadata", metadata.toJson), ("spec", spec)]

/-- Reads an object of a capability kind; its kind and version are not looked at. -/
def readCapability (kind : Kind) (readSpec : Reads σ) : Reads (Metadata × σ)
  | .object ms => do
    let metadata ← field ms "metadata" Metadata.ofJson
    let spec ← field ms "spec" readSpec
    let metadata ← require "metadata" metadata
    let spec ← require "spec" spec
    return (metadata, spec)
  | .array items => do
    let shape := "struct " ++ kind.name ++ " with 2 elements"
    let metadata ← requireItem 0 shape (← item items 0 Metadata.ofJson)
    let spec ← requireItem 1 shape (← item items 1 readSpec)
    noMoreItems items 2
    return (metadata, spec)
  | j => .error (.wrongType j.found ("struct " ++ kind.name))

namespace ProvisionerCapability

def toJson (p : ProvisionerCapability) : Json :=
  capabilityToJson .provisionerCapability p.metadata p.spec.toJson

def ofJson : Reads ProvisionerCapability := fun j => do
  let (metadata, spec) ← readCapability .provisionerCapability ProvisionerSpec.ofJson j
  return ⟨metadata, spec⟩

instance : Resource ProvisionerCapability where
  kind := .provisionerCapability
  metadata := metadata
  withMetadata p m := { p with metadata := m }
  toJson := toJson
  ofJson := ofJson

/-- The name of the plugin as the plugin reports it. -/
def pluginName (p : ProvisionerCapability) : String := p.spec.plugin.name

/-- The vendor's version of the plugin. -/
def pluginVersion (p : ProvisionerCapability) : String := p.spec.plugin.version

end ProvisionerCapability

namespace ClassCapability

def toJson (c : ClassCapability) : Json :=
  capabilityToJson .classCapability c.metadata c.spec.toJson

def ofJson : Reads ClassCapability := fun j => do
  let (metadata, spec) ← readCapability .classCapability ClassSpec.ofJson j
  return ⟨metadata, spec⟩

instance : Resource ClassCapability where
  kind := .classCapability
  metadata := metadata
  withMetadata c m := { c with metadata := m }
  toJson := toJson
  ofJson := ofJson

end ClassCapability

end StorageFeatures
