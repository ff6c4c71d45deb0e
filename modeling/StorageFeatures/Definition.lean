import StorageFeatures.Feature.Json
import StorageFeatures.Object.Kind
import StorageFeatures.Yaml.Writer

/-!
# Definitions of the capability kinds

The API server learns the two kinds of capabilities from their definitions: how they are named,
which columns a listing shows, and which fields an object may have. The defaults of the schema
are the defaults of the types.
-/

namespace StorageFeatures

open Json

/-! ### Schemas -/

namespace Schema

/-- The description of a field. -/
def described (text : String) : List (String × Json) := [("description", .string text)]

/-- The default of a field. -/
def withDefault (value : Json) : List (String × Json) := [("default", value)]

/-- A field of a simple type. -/
def simple (type : String) (notes : List (String × Json)) : Json :=
  .object (("type", .string type) :: notes)

/-- A field that holds a record. -/
def record (properties : List (String × Json)) (required : List String)
    (notes : List (String × Json)) : Json :=
  .object ([("type", .string "object"), ("properties", .object properties)] ++
    (if required.isEmpty then [] else [("required", .strings required)]) ++ notes)

/-- A flag that is off by default. -/
def flag (notes : List (String × Json)) : Json :=
  simple "boolean" (withDefault (.bool false) ++ notes)

def expandMode : Json :=
  simple "string" (described "Volume expansion mode" ++
    withDefault (ExpandMode.toJson default) ++
    [("enum", .strings (ExpandMode.all.map ExpandMode.name))])

def volume : Json :=
  record [("create", flag []), ("attach", flag []), ("list", flag []), ("clone", flag []),
      ("stats", flag []), ("expandMode", expandMode)] []
    (described "Volume operations" ++ withDefault (VolumeFeatures.toJson {}))

def snapshot : Json :=
  record [("create", flag []), ("list", flag [])] []
    (described "Snapshot operations" ++ withDefault (SnapshotFeatures.toJson {}))

/-- The features of a plugin or class. -/
def features (description : String) : Json :=
  record [("topology", flag (described "Plugin honours volume accessibility constraints")),
      ("volume", volume), ("snapshot", snapshot)] []
    (described description ++ withDefault (FeatureSet.toJson {}))

/-- What a published capability holds. -/
def published : Json :=
  record
    [("pluginInfo",
        record [("name", simple "string" []), ("version", simple "string" [])]
          ["name", "version"] (described "Identity reported by the plugin")),
      ("features", features "Feature set reported by the plugin")]
    ["pluginInfo"]
    (described "Capabilities reported by a CSI plugin, named after the plugin.")

/-- What a derived capability holds. -/
def derived : Json :=
  record
    [("provisioner",
        simple "string" (described "Provisioner copied from the StorageClass")),
      ("features", features "Features computed for the StorageClass")]
    ["provisioner"]
    (described "Capabilities available through a StorageClass. Named after the StorageClass.")

end Schema

/-! ### Definitions -/

/-- A column of a listing. -/
structure Column where
  name : String
  type : String
  path : String

structure Definition where
  kind : Kind
  shortName : String
  columns : List Column
  /-- What an object of the kind holds beside its metadata. -/
  schema : Json

namespace Column

def expand : Column := ⟨"Expand", "string", ".spec.features.volume.expandMode"⟩

def age : Column := ⟨"Age", "date", ".metadata.creationTimestamp"⟩

def toJson (c : Column) : Json := .object [
  ("name", .string c.name), ("type", .string c.type), ("jsonPath", .string c.path)]

end Column

namespace Definition

def published : Definition where
  kind := .provisionerCapability
  shortName := "pcap"
  columns := [⟨"Version", "string", ".spec.pluginInfo.version"⟩,
    ⟨"Topology", "boolean", ".spec.features.topology"⟩, .expand, .age]
  schema := Schema.published

def derived : Definition where
  kind := .classCapability
  shortName := "sccap"
  columns := [⟨"Provisioner", "string", ".spec.provisioner"⟩, .expand,
    ⟨"Snapshot", "boolean", ".spec.features.snapshot.create"⟩, .age]
  schema := Schema.derived

def all : List Definition := [published, derived]

/-- The schema of whole objects. -/
def objectSchema (d : Definition) : Json :=
  .object ((Schema.described ("Auto-generated derived type for " ++ d.kind.name ++
      "Spec via `CustomResource`")) ++
    [("title", .string d.kind.name), ("type", .string "object"),
     ("properties", .object [("spec", d.schema)]), ("required", .strings ["spec"])])

/-- The version of the kind that is served and stored. -/
def versionJson (d : Definition) : Json := .object [
  ("name", .string d.kind.version), ("served", .bool true), ("storage", .bool true),
  ("schema", .object [("openAPIV3Schema", d.objectSchema)]),
  ("additionalPrinterColumns", .array (d.columns.map Column.toJson)),
  ("subresources", .object [])]

def namesJson (d : Definition) : Json := .object [
  ("kind", .string d.kind.name), ("plural", .string d.kind.plural),
  ("singular", .string d.kind.name.toLower), ("shortNames", .strings [d.shortName]),
  ("categories", .array [])]

/-- The definition as a document. -/
def toJson (d : Definition) : Json :=
  (Json.object [
    ("apiVersion", .string "apiextensions.k8s.io/v1"),
    ("kind", .string "CustomResourceDefinition"),
    ("metadata", .object [("name", .string (d.kind.plural ++ "." ++ d.kind.group))]),
    ("spec", .object [("group", .string d.kind.group), ("names", d.namesJson),
      ("scope", .string "Cluster"), ("versions", .array [d.versionJson])])]).canonical

/-- All definitions as a stream of documents. -/
def yaml : String := String.join (all.map fun d => "---\n" ++ Yaml.document d.toJson)

end Definition

end StorageFeatures
