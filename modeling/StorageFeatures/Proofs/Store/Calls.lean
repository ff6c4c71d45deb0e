import StorageFeatures.Proofs.Store.Contents

/-!
# How a call to the store in the caches goes

A call meets the fault that was laid out for it, or it is performed (`MemoryStore.Goes`). A call
that is performed is a look-up, or it is refused for what stands in the caches, or it changes one
name of one kind (`MemoryStore.Performs`). Both kinds of objects are treated at once: `StoreAnswer`
is an object of either kind or none, and `Caches.find` says which one stands under a name.
-/

namespace StorageFeatures

open Resource (displayName)

/-! ### Objects of either kind -/

namespace StoreAnswer

/-- The metadata of the object that is answered. -/
def metadata? : StoreAnswer → Option Metadata
  | provisioner p => some p.metadata
  | capability c => some c.metadata
  | nothing => none

/-- The same object with other metadata. -/
def mapMetadata (f : Metadata → Metadata) : StoreAnswer → StoreAnswer
  | provisioner p => .provisioner { p with metadata := f p.metadata }
  | capability c => .capability { c with metadata := f c.metadata }
  | nothing => .nothing

theorem metadata?_mapMetadata (a : StoreAnswer) (f : Metadata → Metadata) :
    (a.mapMetadata f).metadata? = a.metadata?.map f := by
  cases a <;> rfl

end StoreAnswer

namespace StoreCall

def isCreate : StoreCall → Bool
  | createProvisioner _ | createCapability _ => true
  | _ => false

def isUpdate : StoreCall → Bool
  | updateProvisioner _ | updateCapability _ => true
  | _ => false

def isDelete : StoreCall → Bool
  | deleteCapability _ => true
  | _ => false

/-- Whether a call is to store an object. -/
def isPut (call : StoreCall) : Bool := call.isCreate || call.isUpdate

/-- The object that a call carries. -/
def object : StoreCall → StoreAnswer
  | createProvisioner p | updateProvisioner p => .provisioner p
  | createCapability c | updateCapability c => .capability c
  | getProvisioner _ | getCapability _ | deleteCapability _ => .nothing

/-- What a creation or a replacement stores at a revision. Only a creation assigns an identity. -/
def stored (call : StoreCall) (revision : Nat) : StoreAnswer :=
  call.object.mapMetadata fun m =>
    { m with
      resourceVersion := some (toString revision)
      uid := if call.isCreate then some (call.name ++ "-" ++ toString revision) else m.uid }

section

variable {call : StoreCall}

theorem isPut_of_isCreate (h : call.isCreate = true) : call.isPut = true := by
  rw [isPut, h, Bool.true_or]

theorem isPut_of_isUpdate (h : call.isUpdate = true) : call.isPut = true := by
  rw [isPut, h, Bool.or_true]

theorem isCreate_of_isUpdate (h : call.isUpdate = true) : call.isCreate = false := by
  cases call with
  | updateProvisioner | updateCapability => rfl
  | _ => cases h

theorem isWrite_of_isDelete (h : call.isDelete = true) : call.isWrite = true := by
  cases call with
  | deleteCapability => rfl
  | _ => cases h

theorem isWrite_of_isPut (h : call.isPut = true) : call.isWrite = true := by
  cases call with
  | getProvisioner | getCapability => cases h
  | _ => rfl

theorem isDelete_of_isPut (h : call.isPut = true) : call.isDelete = false := by
  cases call with
  | deleteCapability => cases h
  | _ => rfl

theorem exists_metadata_of_isPut (h : call.isPut = true) :
    ∃ m, call.object.metadata? = some m := by
  cases call with
  | getProvisioner | getCapability | deleteCapability => cases h
  | _ => exact ⟨_, rfl⟩

end

/-- What is logged of a call. -/
def written? (call : StoreCall) : Option (WriteKind × String) :=
  call.writeKind?.map fun kind => (kind, call.name)

end StoreCall

namespace Caches

/-- What stands under a name of a kind that is stored. -/
def find (caches : Caches) : Kind → String → StoreAnswer
  | .provisionerCapability, n => ((caches.provisioners.peek n).map .provisioner).getD .nothing
  | .classCapability, n => ((caches.capabilities.peek n).map .capability).getD .nothing
  | .storageClass, _ | .snapshotClass, _ => .nothing

/-- Why a write is refused: what is to be created is there, or what is to be replaced or deleted
is not. -/
def refusal? (caches : Caches) (call : StoreCall) : Option Fault :=
  if call.isCreate then
    if caches.find call.kind call.name = .nothing then none
    else some (.alreadyExists call.kind.name call.name)
  else if call.isUpdate || call.isDelete then
    if caches.find call.kind call.name = .nothing then some (.notFound call.kind.name call.name)
    else none
  else none

/-- Nothing changes from some caches to others but what stands under one name of one kind. -/
structure OnlyAt (k : Kind) (n : String) (caches caches' : Caches) : Prop where
  storageClasses : caches'.storageClasses = caches.storageClasses
  snapshotClasses : caches'.snapshotClasses = caches.snapshotClasses
  synced : ∀ k', caches'.isSynced k' = caches.isSynced k'
  find : ∀ k' n', ¬ (k' = k ∧ n' = n) → caches'.find k' n' = caches.find k' n'

end Caches

/-- Types of objects that stand in a cache of a store. -/
class Kept (α : Type) extends Storable α where
  find_cache (caches : Caches) (n : String) :
    caches.find kind n = (((cache caches).peek n).map answer).getD .nothing
  find_withCache (caches : Caches) (c : Cache α) {k : Kind} (n : String) (h : k ≠ kind) :
    (withCache caches c).find k n = caches.find k n
  cache_withCache (caches : Caches) (c : Cache α) : cache (withCache caches c) = c
  isSynced_withCache (caches : Caches) (c : Cache α) {k : Kind} (h : k ≠ kind) :
    (withCache caches c).isSynced k = caches.isSynced k
  storageClasses_withCache (caches : Caches) (c : Cache α) :
    (withCache caches c).storageClasses = caches.storageClasses
  snapshotClasses_withCache (caches : Caches) (c : Cache α) :
    (withCache caches c).snapshotClasses = caches.snapshotClasses
  answer_ne_nothing (a : α) : answer a ≠ .nothing
  mapMetadata_answer (a : α) (f : Metadata → Metadata) :
    (answer a).mapMetadata f = answer (withMetadata a (f (metadata a)))

instance : Kept ProvisionerCapability where
  find_cache _ _ := rfl
  find_withCache _ _ k _ h := by
    cases k with
    | provisionerCapability => exact absurd rfl h
    | _ => rfl
  cache_withCache _ _ := rfl
  isSynced_withCache _ _ k h := by
    cases k with
    | provisionerCapability => exact absurd rfl h
    | _ => rfl
  storageClasses_withCache _ _ := rfl
  snapshotClasses_withCache _ _ := rfl
  answer_ne_nothing _ := nofun
  mapMetadata_answer _ _ := rfl

instance : Kept ClassCapability where
  find_cache _ _ := rfl
  find_withCache _ _ k _ h := by
    cases k with
    | classCapability => exact absurd rfl h
    | _ => rfl
  cache_withCache _ _ := rfl
  isSynced_withCache _ _ k h := by
    cases k with
    | classCapability => exact absurd rfl h
    | _ => rfl
  storageClasses_withCache _ _ := rfl
  snapshotClasses_withCache _ _ := rfl
  answer_ne_nothing _ := nofun
  mapMetadata_answer _ _ := rfl

section Kept

variable {α : Type} [Kept α] {caches : Caches} {n : String}

open Resource (kind)

/-- Nothing is found where nothing is stored. -/
theorem find_eq_nothing_iff (caches : Caches) (n : String) :
    caches.find (kind α) n = .nothing ↔ (Watched.cache caches : Cache α).peek n = none := by
  rw [Kept.find_cache]
  refine ⟨fun h => ?_, fun h => by rw [h]; rfl⟩
  cases hpeek : (Watched.cache caches : Cache α).peek n with
  | none => rfl
  | some a =>
    rw [hpeek] at h
    exact absurd h (Kept.answer_ne_nothing a)

/-- Where a cache is put back that differs under one name, nothing else changes. -/
theorem onlyAt_withCache {c : Cache α}
    (hsynced : c.synced = (Watched.cache caches : Cache α).synced)
    (h : ∀ n', n' ≠ n → c.peek n' = (Watched.cache caches).peek n') :
    caches.OnlyAt (kind α) n (Watched.withCache caches c) where
  storageClasses := Kept.storageClasses_withCache caches c
  snapshotClasses := Kept.snapshotClasses_withCache caches c
  synced k := by
    by_cases hk : k = kind α
    · rw [hk, ← Storable.synced_cache, ← Storable.synced_cache, Kept.cache_withCache, hsynced]
    · exact Kept.isSynced_withCache caches c hk
  find k n' hne := by
    by_cases hk : k = kind α
    · subst hk
      rw [Kept.find_cache, Kept.find_cache, Kept.cache_withCache, h n' fun hn => hne ⟨rfl, hn⟩]
    · exact Kept.find_withCache caches c n' hk

theorem find_withCache_apply (b : α) (h : displayName b = n) :
    (Watched.withCache caches ((Watched.cache caches).apply b).1).find (kind α) n =
      Storable.answer b := by
  rw [Kept.find_cache, Kept.cache_withCache]
  have hpeek : ((Watched.cache caches).apply b).1.peek n = some b :=
    (Cache.get?_apply _ b n).trans (if_pos h.symm)
  rw [hpeek]
  rfl

/-- Storing an object changes nothing under other names. -/
theorem onlyAt_apply (b : α) (h : displayName b = n) :
    caches.OnlyAt (kind α) n (Watched.withCache caches ((Watched.cache caches).apply b).1) :=
  onlyAt_withCache rfl fun n' hn => (Cache.get?_apply _ b n').trans (if_neg (h ▸ hn))

end Kept

namespace MemoryStore

/-! ### One call -/

/-- How a call goes that meets no fault. -/
inductive Performs (s : MemoryStore) (caches : Caches) (call : StoreCall) :
    MemoryStore × Caches × Except Fault StoreAnswer → Prop where
  | read (h : call.isWrite = false) :
      Performs s caches call (s, caches, .ok (caches.find call.kind call.name))
  | refused {fault : Fault} (refusal : caches.refusal? call = some fault) :
      Performs s caches call (s, caches, .error fault)
  /-- A creation or a replacement. -/
  | stored {caches' : Caches} (put : call.isPut = true)
      (accepted : caches.refusal? call = none)
      (only : caches.OnlyAt call.kind call.name caches')
      (stands : caches'.find call.kind call.name = call.stored (s.revision + 1)) :
      Performs s caches call ({ s with revision := s.revision + 1 }, caches',
        .ok (call.stored (s.revision + 1)))
  | deleted {caches' : Caches} (delete : call.isDelete = true)
      (accepted : caches.refusal? call = none)
      (only : caches.OnlyAt call.kind call.name caches')
      (gone : caches'.find call.kind call.name = .nothing) :
      Performs s caches call (s, caches', .ok .nothing)

section Performs

variable {α : Type} [Kept α] (s : MemoryStore) (caches : Caches) {a : α} {call : StoreCall}

/-- A call that carries an object. -/
structure Carries (call : StoreCall) (a : α) : Prop where
  kind : call.kind = Resource.kind α
  name : call.name = displayName a
  object : call.object = Storable.answer a

/-- What was put into its cache is what is answered. -/
theorem performs_apply (carries : Carries call a)
    (put : call.isPut = true) (accepted : caches.refusal? call = none)
    {b : α} (hname : displayName b = call.name)
    (hstored : Storable.answer b = call.stored (s.revision + 1)) :
    Performs s caches call ({ s with revision := s.revision + 1 },
      Watched.withCache caches ((Watched.cache caches).apply b).1, .ok (Storable.answer b)) := by
  rw [hstored]
  refine .stored put accepted ?_ ?_
  · rw [carries.kind]
    exact onlyAt_apply b hname
  · rw [carries.kind, ← hstored]
    exact find_withCache_apply b hname

/-- A creation stores its object unless the name is taken. -/
theorem performs_create (carries : Carries call a) (create : call.isCreate = true) :
    Performs s caches call (answer Storable.answer (s.create caches a)) := by
  have hfind := find_eq_nothing_iff (α := α) caches (displayName a)
  rw [← carries.kind, ← carries.name] at hfind
  by_cases hfree : caches.find call.kind call.name = .nothing
  · have hstored : Storable.answer (s.created a) = call.stored (s.revision + 1) := by
      rw [StoreCall.stored, carries.object, Kept.mapMetadata_answer, carries.name, create]
      rfl
    have hname : displayName (s.created a) = call.name := by
      rw [carries.name, displayName, created, Storable.metadata_withMetadata]
      rfl
    rw [create_of_free s (carries.name ▸ hfind.mp hfree)]
    exact performs_apply s caches carries (StoreCall.isPut_of_isCreate create)
      (by simp [Caches.refusal?, create, hfree]) hname hstored
  · rw [create_of_taken s (carries.name ▸ mt hfind.mpr hfree), ← carries.kind, ← carries.name]
    exact .refused (by simp [Caches.refusal?, create, hfree])

/-- A replacement stores its object unless the name is free. -/
theorem performs_update (carries : Carries call a) (create : call.isCreate = false)
    (update : call.isUpdate = true) :
    Performs s caches call (answer Storable.answer (s.update caches a)) := by
  have hfind := find_eq_nothing_iff (α := α) caches (displayName a)
  rw [← carries.kind, ← carries.name] at hfind
  by_cases hfree : caches.find call.kind call.name = .nothing
  · rw [update_of_absent s (carries.name ▸ hfind.mp hfree), ← carries.kind, ← carries.name]
    exact .refused (by simp [Caches.refusal?, create, update, hfree])
  · have hstored : Storable.answer (s.updated a) = call.stored (s.revision + 1) := by
      rw [StoreCall.stored, carries.object, Kept.mapMetadata_answer, create]
      rfl
    have hname : displayName (s.updated a) = call.name := by
      rw [carries.name, displayName, updated, Storable.metadata_withMetadata]
      rfl
    rw [update_of_present s (carries.name ▸ mt hfind.mpr hfree)]
    exact performs_apply s caches carries (StoreCall.isPut_of_isUpdate update)
      (by simp [Caches.refusal?, create, update, hfree]) hname hstored

end Performs

/-- A deletion takes its object away unless there is none. -/
theorem performs_delete (s : MemoryStore) (caches : Caches) (n : String) :
    Performs s caches (.deleteCapability n) (answer (fun _ => .nothing) (s.delete caches n)) := by
  cases hpeek : caches.capabilities.peek n with
  | none =>
    have hfind : caches.find .classCapability n = .nothing :=
      (find_eq_nothing_iff (α := ClassCapability) _ n).mpr hpeek
    rw [delete_of_absent s hpeek]
    exact .refused (if_pos hfind)
  | some c =>
    have hfind : caches.find .classCapability n ≠ .nothing := by
      intro h
      have hnone : caches.capabilities.peek n = none :=
        (find_eq_nothing_iff (α := ClassCapability) _ n).mp h
      rw [hnone] at hpeek
      cases hpeek
    have hremove := Cache.get?_remove caches.capabilities n
    rw [delete_of_present s hpeek]
    refine .deleted rfl (if_neg hfind) ?_ ?_
    · exact onlyAt_withCache (α := ClassCapability) rfl fun n' hn => (hremove n').trans (if_neg hn)
    · exact (find_eq_nothing_iff (α := ClassCapability) _ n).mpr ((hremove n).trans (if_pos rfl))

/-- **How a call goes.** -/
theorem performs (s : MemoryStore) (caches : Caches) (call : StoreCall) :
    Performs s caches call (s.perform caches call) := by
  cases call with
  | getProvisioner | getCapability => exact .read rfl
  | createProvisioner p => exact performs_create s caches ⟨rfl, rfl, rfl⟩ rfl
  | createCapability c => exact performs_create s caches ⟨rfl, rfl, rfl⟩ rfl
  | updateProvisioner p => exact performs_update s caches ⟨rfl, rfl, rfl⟩ rfl rfl
  | updateCapability c => exact performs_update s caches ⟨rfl, rfl, rfl⟩ rfl rfl
  | deleteCapability n => exact performs_delete s caches n

/-- The store once a call is logged and has met the fault that was laid out, if there was one. -/
def recorded (s : MemoryStore) (call : StoreCall) : MemoryStore := (s.record call).1

section Recorded

variable (s : MemoryStore) (call : StoreCall)

@[simp] theorem revision_recorded : (s.recorded call).revision = s.revision := by
  cases call <;> rfl

/-- Every write is logged, whether it succeeds or not. -/
theorem calls_recorded : (s.recorded call).calls = s.calls ++ call.written?.toList := by
  cases call with
  | getProvisioner | getCapability => exact (List.append_nil _).symm
  | _ => rfl

/-- A fault that is laid out meets one write. -/
theorem failNext_recorded :
    (s.recorded call).failNext = if call.isWrite then none else s.failNext := by
  cases call <;> rfl

theorem recorded_of_read (h : call.isWrite = false) : s.recorded call = s := by
  cases call with
  | getProvisioner | getCapability => rfl
  | _ => cases h

end Recorded

/-- How a call goes. -/
inductive Goes (s : MemoryStore) (caches : Caches) (call : StoreCall) :
    MemoryStore × Caches × Except Fault StoreAnswer → Prop where
  | faulted {fault : Fault} (write : call.isWrite = true) (armed : s.failNext = some fault) :
      Goes s caches call (s.recorded call, caches, .error fault)
  | performed {r : MemoryStore × Caches × Except Fault StoreAnswer}
      (unarmed : call.isWrite = true → s.failNext = none)
      (performs : Performs (s.recorded call) caches call r) : Goes s caches call r

theorem record_of_write {call : StoreCall} (s : MemoryStore) (h : call.isWrite = true) :
    s.record call = (s.recorded call, s.failNext) := by
  cases call with
  | getProvisioner | getCapability => cases h
  | _ => rfl

theorem record_of_read {call : StoreCall} (s : MemoryStore) (h : call.isWrite = false) :
    s.record call = (s.recorded call, none) := by
  cases call with
  | getProvisioner | getCapability => rfl
  | _ => cases h

/-- Every call meets the fault laid out for it, or goes as it should. -/
theorem goes (s : MemoryStore) (caches : Caches) (call : StoreCall) :
    Goes s caches call (s.run caches call) := by
  have hperforms := performs (s.recorded call) caches call
  unfold run
  cases hwrite : call.isWrite with
  | false =>
    rw [record_of_read s hwrite]
    exact .performed (fun h => nomatch hwrite.symm.trans h) hperforms
  | true =>
    rw [record_of_write s hwrite]
    cases harmed : s.failNext with
    | some fault => exact .faulted hwrite harmed
    | none => exact .performed (fun _ => harmed) hperforms

namespace Performs

variable {s : MemoryStore} {caches : Caches} {call : StoreCall} {a : StoreAnswer} {fault : Fault}
  {r : MemoryStore × Caches × Except Fault StoreAnswer}

theorem calls (h : Performs s caches call r) : r.1.calls = s.calls := by
  cases h <;> rfl

theorem failNext (h : Performs s caches call r) : r.1.failNext = s.failNext := by
  cases h <;> rfl

/-- A look-up is not refused. -/
theorem refusal?_of_read (look : call.isWrite = false) : caches.refusal? call = none := by
  cases call with
  | getProvisioner | getCapability => rfl
  | _ => cases look

/-- A call that is performed fails only for what its place in the caches says. -/
theorem error_iff (h : Performs s caches call r) :
    r.2.2 = .error fault ↔ caches.refusal? call = some fault := by
  cases h with
  | read look => simp [refusal?_of_read look]
  | refused refusal => simp [refusal]
  | stored _ accepted | deleted _ accepted => simp [accepted]

/-- A look-up answers what is there and changes nothing. -/
theorem eq_of_read (h : Performs s caches call r) (look : call.isWrite = false) :
    r = (s, caches, .ok (caches.find call.kind call.name)) := by
  cases h with
  | read => rfl
  | refused refusal => cases (refusal?_of_read look).symm.trans refusal
  | stored put => cases look.symm.trans (StoreCall.isWrite_of_isPut put)
  | deleted delete => cases look.symm.trans (StoreCall.isWrite_of_isDelete delete)

theorem unchanged (h : Performs s caches call r) (failed : r.2.2 = .error fault) :
    r.2.1 = caches ∧ r.1.revision = s.revision := by
  cases h with
  | refused => exact ⟨rfl, rfl⟩
  | read | stored | deleted => cases failed

/-- A write that succeeds is seen under its name only, and its answer is what is found there. -/
theorem onlyAt (h : Performs s caches call r) (write : call.isWrite = true) (ok : r.2.2 = .ok a) :
    caches.OnlyAt call.kind call.name r.2.1 ∧ r.2.1.find call.kind call.name = a := by
  cases h with
  | read hread => cases hread.symm.trans write
  | refused => cases ok
  | stored _ _ only stands =>
    cases ok
    exact ⟨only, stands⟩
  | deleted _ _ only gone =>
    cases ok
    exact ⟨only, gone⟩

/-- A creation or a replacement that succeeds takes the next revision. -/
theorem stored_of_put (h : Performs s caches call r) (put : call.isPut = true)
    (ok : r.2.2 = .ok a) : a = call.stored (s.revision + 1) ∧ r.1.revision = s.revision + 1 := by
  cases h with
  | read hread => cases hread.symm.trans (StoreCall.isWrite_of_isPut put)
  | refused => cases ok
  | stored =>
    cases ok
    exact ⟨rfl, rfl⟩
  | deleted delete => cases delete.symm.trans (StoreCall.isDelete_of_isPut put)

/-- No other call takes one. -/
theorem revision_eq (h : Performs s caches call r)
    (other : call.isPut = false) : r.1.revision = s.revision := by
  cases h with
  | read | refused | deleted => rfl
  | stored put => cases other.symm.trans put

end Performs

namespace Goes

variable {s : MemoryStore} {caches : Caches} {call : StoreCall}
  {r : MemoryStore × Caches × Except Fault StoreAnswer}

theorem calls (h : Goes s caches call r) : r.1.calls = s.calls ++ call.written?.toList := by
  cases h with
  | faulted => exact calls_recorded s call
  | performed _ performs => exact performs.calls.trans (calls_recorded s call)

theorem failNext (h : Goes s caches call r) :
    r.1.failNext = if call.isWrite then none else s.failNext := by
  cases h with
  | faulted => exact failNext_recorded s call
  | performed _ performs => exact performs.failNext.trans (failNext_recorded s call)

/-- A call that fails changes neither objects nor revision. -/
theorem unchanged (h : Goes s caches call r) {fault : Fault} (failed : r.2.2 = .error fault) :
    r.2.1 = caches ∧ r.1.revision = s.revision := by
  cases h with
  | faulted => exact ⟨rfl, revision_recorded s call⟩
  | performed _ performs =>
    obtain ⟨hcaches, hrevision⟩ := performs.unchanged failed
    exact ⟨hcaches, hrevision.trans (revision_recorded s call)⟩

/-- A write for which a fault is laid out fails with it. -/
theorem eq_of_armed (h : Goes s caches call r) {fault : Fault} (write : call.isWrite = true)
    (armed : s.failNext = some fault) : r.2.2 = .error fault := by
  cases h with
  | faulted _ armed' => exact congrArg _ (Option.some.inj (armed'.symm.trans armed))
  | performed unarmed => cases (unarmed write).symm.trans armed

/-- Any other call fails only where it is refused. -/
theorem error_iff_of_unarmed (h : Goes s caches call r) {fault : Fault}
    (unarmed : call.isWrite = true → s.failNext = none) :
    r.2.2 = .error fault ↔ caches.refusal? call = some fault := by
  cases h with
  | faulted write armed => cases (unarmed write).symm.trans armed
  | performed _ performs => exact performs.error_iff

theorem eq_of_read (h : Goes s caches call r) (look : call.isWrite = false) :
    r = (s, caches, .ok (caches.find call.kind call.name)) := by
  cases h with
  | faulted write => cases look.symm.trans write
  | performed _ performs => exact recorded_of_read s call look ▸ performs.eq_of_read look

/-- A call that succeeds was performed. -/
theorem performs_of_ok (h : Goes s caches call r) {a : StoreAnswer} (ok : r.2.2 = .ok a) :
    Performs (s.recorded call) caches call r := by
  cases h with
  | faulted => cases ok
  | performed _ performs => exact performs

end Goes

end MemoryStore

end StorageFeatures
