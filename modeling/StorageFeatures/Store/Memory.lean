import StorageFeatures.Store.Call
import StorageFeatures.Watch.Route

/-!
# A store in the caches

`MemoryStore` keeps its objects in the caches of the controller, as if the informers saw every
write at once. It logs all writes, numbers those that succeed, and can be told to fail the next
one. A write that fails changes no cache and takes no number.
-/

namespace StorageFeatures

open Resource (displayName)

structure MemoryStore where
  /-- All writes so far, the failed ones included. -/
  calls : List (WriteKind × String) := []
  /-- The fault that the next write meets. -/
  failNext : Option Fault := none
  /-- The number of creations and replacements that succeeded. -/
  revision : Nat := 0

namespace MemoryStore

/-- The metadata of the revision with some number. -/
def atRevision (m : Metadata) (revision : Nat) : Metadata :=
  { m with resourceVersion := some (toString revision) }

/-- Creates an object; its identity is made of its name and the revision. -/
def create [Watched α] (s : MemoryStore) (caches : Caches) (a : α) :
    MemoryStore × Caches × Except Fault α :=
  let cache : Cache α := Watched.cache caches
  let name := displayName a
  if (cache.peek name).isSome then
    (s, caches, .error (.alreadyExists (Resource.kind α).name name))
  else
    let revision := s.revision + 1
    let metadata := { atRevision (Resource.metadata a) revision with
      uid := some (name ++ "-" ++ toString revision) }
    let stored := Resource.withMetadata a metadata
    ({ s with revision }, Watched.withCache caches (cache.apply stored).1, .ok stored)

/-- Replaces an object. -/
def update [Watched α] (s : MemoryStore) (caches : Caches) (a : α) :
    MemoryStore × Caches × Except Fault α :=
  let cache : Cache α := Watched.cache caches
  let name := displayName a
  if (cache.peek name).isNone then
    (s, caches, .error (.notFound (Resource.kind α).name name))
  else
    let revision := s.revision + 1
    let stored := Resource.withMetadata a (atRevision (Resource.metadata a) revision)
    ({ s with revision }, Watched.withCache caches (cache.apply stored).1, .ok stored)

/-- Deletes the capability of a class. -/
def delete (s : MemoryStore) (caches : Caches) (name : String) :
    MemoryStore × Caches × Except Fault Unit :=
  match caches.capabilities.remove name with
  | (cache, some _) => (s, { caches with capabilities := cache }, .ok ())
  | (_, none) => (s, caches, .error (.notFound Kind.classCapability.name name))

section Spec

variable {α : Type} [Watched α] {caches : Caches} {a : α}

/-- What a creation stores of an object. -/
def created (s : MemoryStore) (a : α) : α :=
  let revision := s.revision + 1
  Resource.withMetadata a { atRevision (Resource.metadata a) revision with
    uid := some (displayName a ++ "-" ++ toString revision) }

/-- What a replacement stores of an object. -/
def updated (s : MemoryStore) (a : α) : α :=
  Resource.withMetadata a (atRevision (Resource.metadata a) (s.revision + 1))

/-- Where the name is taken, a creation is refused and changes nothing. -/
theorem create_of_taken (s : MemoryStore)
    (h : (Watched.cache caches : Cache α).peek (displayName a) ≠ none) :
    s.create caches a =
      (s, caches, .error (.alreadyExists (Resource.kind α).name (displayName a))) :=
  if_pos (Option.isSome_iff_ne_none.mpr h)

/-- Where the name is free, a creation stores the object at the next revision. -/
theorem create_of_free (s : MemoryStore)
    (h : (Watched.cache caches : Cache α).peek (displayName a) = none) :
    s.create caches a = ({ s with revision := s.revision + 1 },
      Watched.withCache caches ((Watched.cache caches).apply (s.created a)).1,
      .ok (s.created a)) :=
  if_neg (by simp [h])

/-- Where nothing is stored, a replacement is refused and changes nothing. -/
theorem update_of_absent (s : MemoryStore)
    (h : (Watched.cache caches : Cache α).peek (displayName a) = none) :
    s.update caches a =
      (s, caches, .error (.notFound (Resource.kind α).name (displayName a))) :=
  if_pos (by simp [h])

/-- Where something is stored, a replacement puts the object in its place at the next revision. -/
theorem update_of_present (s : MemoryStore)
    (h : (Watched.cache caches : Cache α).peek (displayName a) ≠ none) :
    s.update caches a = ({ s with revision := s.revision + 1 },
      Watched.withCache caches ((Watched.cache caches).apply (s.updated a)).1,
      .ok (s.updated a)) :=
  if_neg (by simpa using h)

/-- Where nothing is stored, a deletion is refused and changes nothing. -/
theorem delete_of_absent (s : MemoryStore) {n : String} (h : caches.capabilities.peek n = none) :
    s.delete caches n = (s, caches, .error (.notFound Kind.classCapability.name n)) := by
  have hremove : caches.capabilities.remove n =
    ({ caches.capabilities with objects := caches.capabilities.objects.erase n }, none) :=
    Prod.ext rfl h
  simp only [delete, hremove]

/-- A deletion takes the object away and uses no revision. -/
theorem delete_of_present (s : MemoryStore) {n : String} {c : ClassCapability}
    (h : caches.capabilities.peek n = some c) : s.delete caches n =
      (s, Watched.withCache caches (caches.capabilities.remove n).1, .ok ()) := by
  have hremove : caches.capabilities.remove n =
    ({ caches.capabilities with objects := caches.capabilities.objects.erase n }, some c) :=
    Prod.ext rfl h
  simp only [delete, hremove]
  rfl

end Spec

/-- Logs a write and takes the fault that it meets. -/
def record (s : MemoryStore) (call : StoreCall) : MemoryStore × Option Fault :=
  match call.writeKind? with
  | some kind => ({ s with calls := s.calls ++ [(kind, call.name)], failNext := none }, s.failNext)
  | none => (s, none)

/-- The answer that carries an object. -/
def answer (f : α → StoreAnswer) : MemoryStore × Caches × Except Fault α →
    MemoryStore × Caches × Except Fault StoreAnswer
  | (s, caches, r) => (s, caches, r.map f)

/-- Carries out a call that meets no fault. -/
def perform (s : MemoryStore) (caches : Caches) :
    StoreCall → MemoryStore × Caches × Except Fault StoreAnswer
  | .getProvisioner name =>
    (s, caches, .ok (((caches.provisioners.peek name).map .provisioner).getD .nothing))
  | .getCapability name =>
    (s, caches, .ok (((caches.capabilities.peek name).map .capability).getD .nothing))
  | .createProvisioner p => answer .provisioner (s.create caches p)
  | .updateProvisioner p => answer .provisioner (s.update caches p)
  | .createCapability c => answer .capability (s.create caches c)
  | .updateCapability c => answer .capability (s.update caches c)
  | .deleteCapability name => answer (fun _ => .nothing) (s.delete caches name)

/-- Carries out a call. -/
def run (s : MemoryStore) (caches : Caches) (call : StoreCall) :
    MemoryStore × Caches × Except Fault StoreAnswer :=
  match s.record call with
  | (s, some fault) => (s, caches, .error fault)
  | (s, none) => s.perform caches call

/-- The store together with the caches in which it keeps its objects. -/
def serve : CapabilityStore (StateM (MemoryStore × Caches)) := fun call => do
  let (s, caches) ← get
  let (s, caches, answer) := s.run caches call
  set (s, caches)
  return answer

/-- A call that meets a fault changes no cache. -/
theorem caches_run_of_fault {s s' : MemoryStore} {caches : Caches} {call : StoreCall}
    {fault : Fault} (h : s.record call = (s', some fault)) :
    s.run caches call = (s', caches, .error fault) := by
  simp [run, h]

end MemoryStore

end StorageFeatures
