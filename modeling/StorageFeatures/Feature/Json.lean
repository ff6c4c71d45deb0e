import StorageFeatures.Feature.Basic
import StorageFeatures.Json.Decode

/-!
# Feature sets as JSON

Every flag is written; a flag that is left out reads as its default. An expansion mode is a
string, or an object whose only member has the mode's name and the value null.
-/

namespace StorageFeatures

open Json

namespace ExpandMode

def toJson (m : ExpandMode) : Json := .string m.name

/-- The mode with a name, or the names that would have been known. -/
def ofName (s : String) : Except Mismatch ExpandMode :=
  match ofName? s with
  | some m => .ok m
  | none => .error (.unknownVariant s (all.map name))

def ofJson : Reads ExpandMode
  | .string s => ofName s
  | .object [(k, j)] => do
    let m ← ofName k
    match j with
    | .null => return m
    | j => .error (.wrongType j.found "unit")
  | .object _ => .error (.wrongValue .map "map with a single key")
  | j => .error (.wrongType j.found "string or map")

@[simp] theorem ofJson_toJson (m : ExpandMode) : ofJson m.toJson = .ok m := by
  simp [toJson, ofJson, ofName]

end ExpandMode

namespace VolumeFeatures

def toJson (v : VolumeFeatures) : Json := .object [
  ("attach", .bool v.attach), ("clone", .bool v.clone), ("create", .bool v.create),
  ("expandMode", v.expand.toJson), ("list", .bool v.list), ("stats", .bool v.stats)]

def ofJson : Reads VolumeFeatures
  | .object ms => do
    let attach ← field ms "attach" readBool
    let clone ← field ms "clone" readBool
    let create ← field ms "create" readBool
    let expand ← field ms "expandMode" ExpandMode.ofJson
    let list ← field ms "list" readBool
    let stats ← field ms "stats" readBool
    return ⟨create.getD false, attach.getD false, list.getD false, clone.getD false,
      stats.getD false, expand.getD .unknown⟩
  | .array items => do
    let create ← item items 0 readBool
    let attach ← item items 1 readBool
    let list ← item items 2 readBool
    let clone ← item items 3 readBool
    let stats ← item items 4 readBool
    let expand ← item items 5 ExpandMode.ofJson
    noMoreItems items 6
    return ⟨create.getD false, attach.getD false, list.getD false, clone.getD false,
      stats.getD false, expand.getD .unknown⟩
  | j => .error (.wrongType j.found "struct VolumeFeatures")

/-- The flags of a volume are read back, those that are false included. -/
@[simp] theorem ofJson_toJson (v : VolumeFeatures) : ofJson v.toJson = .ok v := by
  obtain ⟨_, _, _, _, _, m⟩ := v
  simp [toJson, ofJson, field, occurrences, lookup, readBool]
  rfl

end VolumeFeatures

namespace SnapshotFeatures

def toJson (s : SnapshotFeatures) : Json := .object [
  ("create", .bool s.create), ("list", .bool s.list)]

def ofJson : Reads SnapshotFeatures
  | .object ms => do
    let create ← field ms "create" readBool
    let list ← field ms "list" readBool
    return ⟨create.getD false, list.getD false⟩
  | .array items => do
    let create ← item items 0 readBool
    let list ← item items 1 readBool
    noMoreItems items 2
    return ⟨create.getD false, list.getD false⟩
  | j => .error (.wrongType j.found "struct SnapshotFeatures")

@[simp] theorem ofJson_toJson (s : SnapshotFeatures) : ofJson s.toJson = .ok s := by
  simp [toJson, ofJson, field, occurrences, lookup, readBool]
  rfl

end SnapshotFeatures

namespace FeatureSet

def toJson (f : FeatureSet) : Json := .object [
  ("snapshot", f.snapshot.toJson), ("topology", .bool f.topology), ("volume", f.volume.toJson)]

def ofJson : Reads FeatureSet
  | .object ms => do
    let snapshot ← field ms "snapshot" SnapshotFeatures.ofJson
    let topology ← field ms "topology" readBool
    let volume ← field ms "volume" VolumeFeatures.ofJson
    return ⟨topology.getD false, volume.getD {}, snapshot.getD {}⟩
  | .array items => do
    let topology ← item items 0 readBool
    let volume ← item items 1 VolumeFeatures.ofJson
    let snapshot ← item items 2 SnapshotFeatures.ofJson
    noMoreItems items 3
    return ⟨topology.getD false, volume.getD {}, snapshot.getD {}⟩
  | j => .error (.wrongType j.found "struct FeatureSet")

@[simp] theorem ofJson_toJson (f : FeatureSet) : ofJson f.toJson = .ok f := by
  simp [toJson, ofJson, field, occurrences, lookup, readBool]
  rfl

end FeatureSet

end StorageFeatures
