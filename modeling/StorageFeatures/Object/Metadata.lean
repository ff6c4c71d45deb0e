import StorageFeatures.Json.Decode

/-!
# Metadata of objects

What every object of the cluster carries: its name, or the beginning of a name that the server
completes, and what the server and its users record about it. An absent field and an empty one
are different; only fields that are present are written.
-/

namespace StorageFeatures

open Json

structure Metadata where
  name : Option String := none
  generateName : Option String := none
  namespaceName : Option String := none
  labels : Option (NameMap String) := none
  annotations : Option (NameMap String) := none
  uid : Option String := none
  resourceVersion : Option String := none
  generation : Option Int := none
  finalizers : Option (List String) := none
  deriving DecidableEq

namespace Metadata

instance : Inhabited Metadata := ⟨{}⟩

/-- The name, else the beginning of a name; an empty name is a name. -/
def displayName (m : Metadata) : String := (m.name.or m.generateName).getD ""

def members (m : Metadata) : List (String × Json) :=
  Json.member? "annotations" ofNames m.annotations ++
  Json.member? "finalizers" strings m.finalizers ++
  Json.member? "generateName" .string m.generateName ++
  Json.member? "generation" .int m.generation ++
  Json.member? "labels" ofNames m.labels ++
  Json.member? "name" .string m.name ++
  Json.member? "namespace" .string m.namespaceName ++
  Json.member? "resourceVersion" .string m.resourceVersion ++
  Json.member? "uid" .string m.uid

def toJson (m : Metadata) : Json := .object m.members

def ofJson : Reads Metadata
  | .object ms => do
    let annotations ← lastField ms "annotations" readNames
    let finalizers ← lastField ms "finalizers" (readList readString)
    let generateName ← lastField ms "generateName" readString
    let generation ← lastField ms "generation" readInt64
    let labels ← lastField ms "labels" readNames
    let name ← lastField ms "name" readString
    let namespaceName ← lastField ms "namespace" readString
    let resourceVersion ← lastField ms "resourceVersion" readString
    let uid ← lastField ms "uid" readString
    return { name, generateName, namespaceName, labels, annotations, uid, resourceVersion,
             generation, finalizers }
  | j => .error (.wrongType j.found "ObjectMeta")

@[simp] theorem displayName_of_name {m : Metadata} {n : String} (h : m.name = some n) :
    m.displayName = n := by
  simp [displayName, h]

@[simp] theorem displayName_default : ({} : Metadata).displayName = "" := rfl

end Metadata

end StorageFeatures
