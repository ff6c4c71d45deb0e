import StorageFeatures.Cache

/-!
# Watching objects

A watch reports changes of one kind; an informer stores them in a cache and tells its handlers by
events what happened to which object. After a restart of the watch, objects that are gone are
reported by the last state that the cache knew.
-/

namespace StorageFeatures

open Resource (displayName)

/-- What a watch reports. -/
inductive Change (α : Type) where
  | applied (object : α)
  | deleted (object : α)
  /-- The watch began anew with a full list. -/
  | restarted (objects : List α)

/-- What happened to an object. -/
inductive Event (α : Type) where
  | added (new : α)
  | updated (old new : α)
  | deleted (final : α)
  /-- The object vanished while nobody watched. -/
  | vanished (last : α)

namespace Event

variable {α : Type}

/-- The object that an event is about; the new state of an update. -/
def object : Event α → α
  | added new => new
  | updated _ new => new
  | deleted final => final
  | vanished last => last

/-- Whether an update repeats a state that is known: both sides carry the same revision. -/
def isResync [Resource α] : Event α → Bool
  | updated old new =>
    (Resource.resourceVersion old).isSome &&
      Resource.resourceVersion old = Resource.resourceVersion new
  | _ => false

/-- The event of an object that replaced another one, or none. -/
def ofReplaced (new : α) : Option α → Event α
  | some old => updated old new
  | none => added new

@[simp] theorem object_ofReplaced (new : α) (old : Option α) :
    (ofReplaced new old).object = new := by
  cases old <;> rfl

end Event

/-! ### Informers -/

namespace Cache

variable {α : Type} [Resource α]

/-- Stores a change; answers also what handlers are told, in order. -/
def observe (c : Cache α) : Change α → Cache α × List (Event α)
  | .applied a =>
    let (c, old) := c.apply a
    (c, [.ofReplaced a old])
  | .deleted a =>
    let (c, _) := c.remove (displayName a)
    (c, [.deleted a])
  | .restarted l =>
    let (c, r) := c.replace l
    (c, (r.applied.map fun (a, old) => .ofReplaced a old) ++ r.removed.map .vanished)

omit [Resource α] in
/-- Every cached object again, as an update to itself; nothing before the cache has synced. -/
def resync (c : Cache α) : List (Event α) :=
  if c.synced then c.snapshot.map fun a => .updated a a else []

/-- A synced cache stays synced. -/
theorem synced_observe {c : Cache α} (h : c.synced = true) (change : Change α) :
    (c.observe change).1.synced = true := by
  cases change <;> simp_all [observe]

end Cache

end StorageFeatures
