/-!
# Feature sets

What a storage plugin can do, or what is available through a storage class: topology, the
operations on volumes with the mode of their expansion, and the operations on snapshots. The
default of each record advertises nothing.
-/

namespace StorageFeatures

/-- How a volume may grow. -/
inductive ExpandMode where
  | unknown
  | offline
  | online
  deriving DecidableEq, Repr, Inhabited

/-- Operations on volumes. -/
structure VolumeFeatures where
  create : Bool := false
  attach : Bool := false
  list : Bool := false
  clone : Bool := false
  stats : Bool := false
  expand : ExpandMode := .unknown
  deriving DecidableEq, Repr, Inhabited

/-- Operations on snapshots. -/
structure SnapshotFeatures where
  create : Bool := false
  list : Bool := false
  deriving DecidableEq, Repr, Inhabited

/-- Every flag that a plugin may advertise. -/
structure FeatureSet where
  topology : Bool := false
  volume : VolumeFeatures := {}
  snapshot : SnapshotFeatures := {}
  deriving DecidableEq, Repr, Inhabited

namespace ExpandMode

def name : ExpandMode → String
  | unknown => "UNKNOWN"
  | offline => "OFFLINE"
  | online => "ONLINE"

def all : List ExpandMode := [unknown, offline, online]

/-- The mode with a name. -/
def ofName? (s : String) : Option ExpandMode := all.find? fun m => m.name = s

@[simp] theorem ofName?_name (m : ExpandMode) : ofName? m.name = some m := by
  cases m <;> rfl

/-- A text names at most one mode. -/
theorem ofName?_eq_some_iff {s : String} {m : ExpandMode} : ofName? s = some m ↔ m.name = s := by
  constructor
  · intro h
    simpa using List.find?_some h
  · rintro rfl
    exact ofName?_name m

end ExpandMode

end StorageFeatures
