import StorageFeatures.Watch.Event

/-!
# From events to keys

The names of the storage classes that an event may affect. A change of a class, of its snapshot
class or of its capability affects the class of that name; a change of a provisioner's capability
affects every cached class that the provisioner serves. A repeated state of a class or snapshot
class affects nothing, while repeated states of capabilities are looked at again.
-/

namespace StorageFeatures

open Resource (displayName)

/-- The names of the cached classes that a provisioner serves; none before the cache has synced. -/
def Cache.servedBy (classes : Cache StorageClass) (provisioner : String) : List String :=
  if classes.synced then
    (classes.snapshot.filter fun c => c.provisioner = provisioner).map displayName
  else []

/-- Types of watched objects: where they are cached, and which keys an event affects. -/
class Watched (α : Type) extends Resource α where
  cache : Caches → Cache α
  withCache : Caches → Cache α → Caches
  affected : Cache StorageClass → Event α → List String

instance : Watched StorageClass where
  cache := Caches.storageClasses
  withCache c cache := { c with storageClasses := cache }
  affected _ e := if e.isResync then [] else [displayName e.object]

instance : Watched SnapshotClass where
  cache := Caches.snapshotClasses
  withCache c cache := { c with snapshotClasses := cache }
  affected _ e := if e.isResync then [] else [displayName e.object]

instance : Watched ProvisionerCapability where
  cache := Caches.provisioners
  withCache c cache := { c with provisioners := cache }
  affected classes e := classes.servedBy (displayName e.object)

instance : Watched ClassCapability where
  cache := Caches.capabilities
  withCache c cache := { c with capabilities := cache }
  affected _ e := [displayName e.object]

/-- The keys of an event that are queued: an object without a name is dropped. -/
def Event.keys [Watched α] (classes : Cache StorageClass) (e : Event α) : List String :=
  (Watched.affected classes e).filter fun k => !k.isEmpty

/-- The classes of a provisioner are asked of a synced cache only; before that there are none. -/
theorem mem_servedBy_iff {classes : Cache StorageClass} {p k : String} :
    k ∈ classes.servedBy p ↔
      classes.synced = true ∧ ∃ c ∈ classes.snapshot, c.provisioner = p ∧ displayName c = k := by
  unfold Cache.servedBy
  split <;> simp_all [and_assoc]

end StorageFeatures
