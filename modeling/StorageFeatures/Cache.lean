import StorageFeatures.Fault
import StorageFeatures.Object.Capability
import StorageFeatures.Object.SnapshotClass
import StorageFeatures.Object.StorageClass

/-!
# Caches

A `Cache` is a local copy of all objects of one kind by name. Before the first full list has been
stored nothing can be read from it, so a cold cache is never taken for an empty one; once synced
it stays synced. `Caches` holds the four caches that the controller reads.
-/

namespace StorageFeatures

open Resource (displayName)

structure Cache (α : Type) where
  objects : NameMap α := ∅
  synced : Bool := false

instance {α : Type} : Inhabited (Cache α) := ⟨{}⟩

/-- What a fresh list changed. -/
structure Replaced (α : Type) where
  /-- The objects of the list by name, each with the object it replaced. -/
  applied : List (α × Option α)
  /-- The objects that were cached and are not in the list. -/
  removed : List α

namespace Cache

variable {α : Type} [Resource α]

/-- Stores an object under its name; answers also the object that was there. -/
def apply (c : Cache α) (a : α) : Cache α × Option α :=
  ({ c with objects := c.objects.insert (displayName a) a }, c.objects.get? (displayName a))

omit [Resource α] in
/-- Drops a name; answers also the object that was there. -/
def remove (c : Cache α) (k : String) : Cache α × Option α :=
  ({ c with objects := c.objects.erase k }, c.objects.get? k)

/-- The objects of a list by name; of two with one name the later one. -/
def index (l : List α) : NameMap α := .ofList (l.map fun a => (displayName a, a))

/-- Stores a full list in place of everything, which syncs the cache. -/
def replace (c : Cache α) (l : List α) : Cache α × Replaced α :=
  let fresh := index l
  ({ objects := fresh, synced := true },
   { applied := fresh.entries.map fun (k, a) => (a, c.objects.get? k)
     removed := (c.objects.entries.filter fun (k, _) => !fresh.contains k).map (·.2) })

omit [Resource α] in
def markSynced (c : Cache α) : Cache α := { c with synced := true }

omit [Resource α] in
/-- The object under a name, whether or not the cache has synced. -/
def peek (c : Cache α) (k : String) : Option α := c.objects.get? k

omit [Resource α] in
/-- Every object in the order of names, whether or not the cache has synced. -/
def snapshot (c : Cache α) : List α := c.objects.values

/-- Fails before the cache has synced. -/
def ensureSynced (c : Cache α) : Except Fault Unit :=
  if c.synced then .ok () else .error (.cacheNotSynced (Resource.kind α).name)

/-- The object under a name. -/
def get (c : Cache α) (k : String) : Except Fault (Option α) := do
  c.ensureSynced
  return c.peek k

/-- Every object. -/
def list (c : Cache α) : Except Fault (List α) := do
  c.ensureSynced
  return c.snapshot

@[simp] theorem synced_apply (c : Cache α) (a : α) : (c.apply a).1.synced = c.synced := rfl

omit [Resource α] in
@[simp] theorem synced_remove (c : Cache α) (k : String) : (c.remove k).1.synced = c.synced := rfl

/-- A full list syncs the cache. -/
@[simp] theorem synced_replace (c : Cache α) (l : List α) : (c.replace l).1.synced = true := rfl

/-- A look-up answers only once the cache has synced; a missing object is an answer too. -/
theorem get_eq_ok_iff {c : Cache α} {k : String} {a : Option α} :
    c.get k = .ok a ↔ c.synced = true ∧ c.objects.get? k = a := by
  unfold get ensureSynced peek
  cases c.synced <;> simp [bind, Except.bind, pure, Except.pure]

end Cache

/-- The caches of the four kinds. -/
structure Caches where
  storageClasses : Cache StorageClass := {}
  snapshotClasses : Cache SnapshotClass := {}
  provisioners : Cache ProvisionerCapability := {}
  capabilities : Cache ClassCapability := {}

namespace Caches

instance : Inhabited Caches := ⟨{}⟩

/-- Whether the cache of a kind has synced. -/
def isSynced (c : Caches) : Kind → Bool
  | .storageClass => c.storageClasses.synced
  | .snapshotClass => c.snapshotClasses.synced
  | .provisionerCapability => c.provisioners.synced
  | .classCapability => c.capabilities.synced

/-- The kinds whose first list is outstanding. -/
def unsynced (c : Caches) : List Kind := Kind.all.filter fun k => !c.isSynced k

def allSynced (c : Caches) : Bool := c.unsynced.isEmpty

def markAllSynced (c : Caches) : Caches :=
  { storageClasses := c.storageClasses.markSynced
    snapshotClasses := c.snapshotClasses.markSynced
    provisioners := c.provisioners.markSynced
    capabilities := c.capabilities.markSynced }

theorem allSynced_iff {c : Caches} : c.allSynced = true ↔ ∀ k, c.isSynced k = true := by
  simp only [allSynced, unsynced, List.isEmpty_iff, List.filter_eq_nil_iff]
  constructor
  · intro h k
    simpa using h k (by cases k <;> decide)
  · intro h k _
    simp [h k]

end Caches

end StorageFeatures
