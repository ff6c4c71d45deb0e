import StorageFeatures.Proofs.Cache.Keyed
import StorageFeatures.Store.Memory

/-!
# What a call leaves alone

A call to the store in the caches changes one object at most, and that under its own name.
`Caches.Touched` lists what a call can make of the caches, whether it is carried out or meets a
fault (`MemoryStore.touched_run`); the facts below it follow from that list and not from the
single operations.
-/

namespace StorageFeatures

open Resource (displayName)

/-- Whether a call writes the capability of a name. -/
def StoreCall.Concerns (call : StoreCall) (k : String) : Prop :=
  match call with
  | .createCapability a | .updateCapability a => displayName a = k
  | .deleteCapability n => n = k
  | .getProvisioner _ | .getCapability _ | .createProvisioner _ | .updateProvisioner _ => False

/-- A call writes the capability of the name that it is about. -/
theorem StoreCall.Concerns.name_eq {call : StoreCall} {k : String} (h : call.Concerns k) :
    call.name = k := by
  cases call <;> first | exact h | exact h.elim

/-- A call writes the capability of one name at most. -/
theorem StoreCall.Concerns.unique {call : StoreCall} {k k' : String} (h : call.Concerns k)
    (h' : call.Concerns k') : k = k' :=
  h.name_eq.symm.trans h'.name_eq

namespace Caches

/-- What a call makes of the caches. -/
inductive Touched (caches : Caches) (call : StoreCall) : Caches → Prop where
  | unchanged : Touched caches call caches
  | provisioner (p : ProvisionerCapability) (other : ∀ k, ¬ call.Concerns k) :
      Touched caches call { caches with provisioners := (caches.provisioners.apply p).1 }
  | capability (a : ClassCapability) (concerns : call.Concerns (displayName a)) :
      Touched caches call { caches with capabilities := (caches.capabilities.apply a).1 }
  | deleted (n : String) (concerns : call.Concerns n) :
      Touched caches call { caches with capabilities := (caches.capabilities.remove n).1 }

namespace Touched

variable {caches caches' : Caches} {call : StoreCall}

/-- No call stores an object under another name. -/
theorem keyed (touched : caches.Touched call caches') (h : caches.Keyed) : caches'.Keyed := by
  obtain ⟨hclasses, hsnaps, hprovs, hcaps⟩ := h
  cases touched with
  | unchanged => exact ⟨hclasses, hsnaps, hprovs, hcaps⟩
  | provisioner p => exact ⟨hclasses, hsnaps, hprovs.apply p, hcaps⟩
  | capability a => exact ⟨hclasses, hsnaps, hprovs, hcaps.apply a⟩
  | deleted n => exact ⟨hclasses, hsnaps, hprovs, hcaps.remove n⟩

/-- No call changes which caches have synced. -/
theorem isSynced (touched : caches.Touched call caches') (k : Kind) :
    caches'.isSynced k = caches.isSynced k := by
  cases touched <;> cases k <;> rfl

/-- A call that writes the capability of a name leaves everything else alone. -/
theorem frame (touched : caches.Touched call caches') {k : String} (h : call.Concerns k) :
    ∃ cache, caches' = { caches with capabilities := cache } ∧
      ∀ n, n ≠ k → cache.peek n = caches.capabilities.peek n := by
  cases touched with
  | unchanged => exact ⟨_, rfl, fun _ _ => rfl⟩
  | provisioner p other => exact absurd h (other k)
  | capability a concerns =>
    refine ⟨_, rfl, fun n hn => ?_⟩
    exact (Cache.get?_apply _ _ n).trans (if_neg (concerns.unique h ▸ hn))
  | deleted m concerns =>
    refine ⟨_, rfl, fun n hn => ?_⟩
    exact (Cache.get?_remove _ _ n).trans (if_neg (concerns.unique h ▸ hn))

end Touched

end Caches

namespace MemoryStore

variable {store : MemoryStore} (caches : Caches) (call : StoreCall)

/-- A call changes one object at most, in the caches of its kind, and lays out no fault. -/
theorem touched_perform (store : MemoryStore) :
    caches.Touched call (store.perform caches call).2.1 ∧
      (store.perform caches call).1.failNext = store.failNext := by
  cases call with
  | getProvisioner | getCapability => exact ⟨.unchanged, rfl⟩
  | createProvisioner a =>
    simp only [perform, create, answer]
    split
    · exact ⟨.unchanged, rfl⟩
    · exact ⟨.provisioner _ fun _ => id, rfl⟩
  | updateProvisioner a =>
    simp only [perform, update, answer]
    split
    · exact ⟨.unchanged, rfl⟩
    · exact ⟨.provisioner _ fun _ => id, rfl⟩
  | createCapability a =>
    simp only [perform, create, answer]
    split
    · exact ⟨.unchanged, rfl⟩
    · exact ⟨.capability _ rfl, rfl⟩
  | updateCapability a =>
    simp only [perform, update, answer]
    split
    · exact ⟨.unchanged, rfl⟩
    · exact ⟨.capability _ rfl, rfl⟩
  | deleteCapability n =>
    simp only [perform, delete, answer]
    split
    · rename_i heq
      obtain rfl := congrArg Prod.fst heq
      exact ⟨.deleted n rfl, rfl⟩
    · exact ⟨.unchanged, rfl⟩

/-- A call meets the fault that was laid out, or is carried out. -/
theorem run_cases (store : MemoryStore) :
    (∃ store' fault, store.failNext = some fault ∧
      store.run caches call = (store', caches, .error fault)) ∨
    ∃ store' : MemoryStore, (store.failNext = none → store'.failNext = none) ∧
      store.run caches call = store'.perform caches call := by
  unfold run record
  cases call.writeKind? with
  | none => exact .inr ⟨store, id, rfl⟩
  | some kind =>
    cases hf : store.failNext with
    | none => exact .inr ⟨_, fun _ => rfl, rfl⟩
    | some fault => exact .inl ⟨_, fault, rfl, rfl⟩

/-- **One object at most.** -/
theorem touched_run (store : MemoryStore) :
    caches.Touched call (store.run caches call).2.1 := by
  rcases run_cases caches call store with ⟨_, _, -, hrun⟩ | ⟨store', -, hrun⟩
  · rw [hrun]
    exact .unchanged
  · rw [hrun]
    exact (touched_perform caches call store').1

/-- A store that was not told to fail carries out the call, and is not told to fail then. -/
theorem run_of_unarmed (h : store.failNext = none) :
    (store.run caches call).1.failNext = none ∧
      ∃ store' : MemoryStore, store.run caches call = store'.perform caches call := by
  rcases run_cases caches call store with ⟨_, _, hfault, -⟩ | ⟨store', hnone, hrun⟩
  · rw [h] at hfault
    cases hfault
  · refine ⟨?_, store', hrun⟩
    rw [hrun]
    exact (touched_perform caches call store').2.trans (hnone h)

end MemoryStore

end StorageFeatures
