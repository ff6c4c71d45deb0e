import StorageFeatures.Object.Kind

/-!
# Storage classes

The policy that an administrator defines: which provisioner serves the volumes of a class and
whether they may grow. Every field may be absent or null, but a kind or version that is present
has to be right.
-/

namespace StorageFeatures

open Json

/-- A label of which one of some values is required. -/
structure LabelRequirement where
  key : String := ""
  values : List String := []
  deriving DecidableEq, Repr

/-- Label requirements that hold together. -/
structure TopologyTerm where
  matchLabels : Option (List LabelRequirement) := none
  deriving DecidableEq, Repr

structure StorageClass where
  metadata : Metadata := {}
  provisioner : String := ""
  allowVolumeExpansion : Option Bool := none
  allowedTopologies : Option (List TopologyTerm) := none
  mountOptions : Option (List String) := none
  parameters : Option (NameMap String) := none
  reclaimPolicy : Option String := none
  volumeBindingMode : Option String := none
  deriving DecidableEq

namespace LabelRequirement

def toJson (r : LabelRequirement) : Json :=
  .object [("key", .string r.key), ("values", strings r.values)]

def ofJson : Reads LabelRequirement
  | .object ms => do
    let key ← lastField ms "key" readString
    let values ← lastField ms "values" (readList readString)
    return ⟨key.getD "", values.getD []⟩
  | j => .error (.wrongType j.found "TopologySelectorLabelRequirement")

end LabelRequirement

namespace TopologyTerm

def toJson (t : TopologyTerm) : Json :=
  .object (Json.member? "matchLabelExpressions"
    (fun l => .array (l.map LabelRequirement.toJson)) t.matchLabels)

def ofJson : Reads TopologyTerm
  | .object ms => do
    let matchLabels ← lastField ms "matchLabelExpressions" (readList LabelRequirement.ofJson)
    return ⟨matchLabels⟩
  | j => .error (.wrongType j.found "TopologySelectorTerm")

end TopologyTerm

namespace StorageClass

instance : Inhabited StorageClass := ⟨{}⟩

def toJson (c : StorageClass) : Json := .object (
  Json.member? "allowVolumeExpansion" .bool c.allowVolumeExpansion ++
  Json.member? "allowedTopologies" (fun l => .array (l.map TopologyTerm.toJson))
    c.allowedTopologies ++
  [("apiVersion", .string Kind.storageClass.apiVersion),
   ("kind", .string Kind.storageClass.name),
   ("metadata", c.metadata.toJson)] ++
  Json.member? "mountOptions" strings c.mountOptions ++
  Json.member? "parameters" ofNames c.parameters ++
  [("provisioner", .string c.provisioner)] ++
  Json.member? "reclaimPolicy" .string c.reclaimPolicy ++
  Json.member? "volumeBindingMode" .string c.volumeBindingMode)

/-- A member that may be absent but has only one right value. -/
def expectText (ms : List (String × Json)) (k expected : String) : Except Mismatch Unit :=
  match lookup k ms with
  | none => .ok ()
  | some j => do
    let s ← readString j
    if s = expected then .ok () else .error (.wrongValue (.text s) expected)

def ofJson : Reads StorageClass
  | .object ms => do
    let allowVolumeExpansion ← lastField ms "allowVolumeExpansion" readBool
    let allowedTopologies ← lastField ms "allowedTopologies" (readList TopologyTerm.ofJson)
    expectText ms "apiVersion" Kind.storageClass.apiVersion
    expectText ms "kind" Kind.storageClass.name
    let metadata ← lastField ms "metadata" Metadata.ofJson
    let mountOptions ← lastField ms "mountOptions" (readList readString)
    let parameters ← lastField ms "parameters" readNames
    let provisioner ← lastField ms "provisioner" readString
    let reclaimPolicy ← lastField ms "reclaimPolicy" readString
    let volumeBindingMode ← lastField ms "volumeBindingMode" readString
    return { metadata := metadata.getD {}, provisioner := provisioner.getD "",
             allowVolumeExpansion, allowedTopologies, mountOptions, parameters, reclaimPolicy,
             volumeBindingMode }
  | j => .error (.wrongType j.found Kind.storageClass.name)

instance : Resource StorageClass where
  kind := .storageClass
  metadata := metadata
  withMetadata c m := { c with metadata := m }
  toJson := toJson
  ofJson := ofJson

/-- Volumes may grow only if the class says so. -/
def allowsExpansion (c : StorageClass) : Bool := c.allowVolumeExpansion.getD false

end StorageClass

end StorageFeatures
