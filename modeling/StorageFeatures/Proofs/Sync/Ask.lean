import StorageFeatures.Proofs.Store.Frame
import StorageFeatures.Proofs.Sync.Decisions

/-!
# What the caches ask for

A pass that comes to a decision makes the write `Sync.ask`, which is a function of the objects in
the caches alone (`Sync.call?_of_decide`). What is asked for depends on the three objects of the
name and on the provisioner of the class (`Sync.ask_congr`), it never fails on a store that keeps
its objects in these caches, and then nothing more is asked for under that name
(`Sync.ask_perform`). A name that asks for nothing is settled: without a class there is no
capability, and a class that has a name and a published provisioner has the capability that
follows from them.
-/

namespace StorageFeatures

open Resource (displayName)

namespace Sync

/-- The write that is asked for under the name of a class whose provisioner has published. -/
def askServed (stored : Option ClassCapability) (c : StorageClass)
    (snapshots : Option SnapshotClass) (p : ProvisionerCapability) : Option StoreCall :=
  match stored with
  | none => some (.createCapability (.derive c snapshots p))
  | some stored =>
    match stored.merge c snapshots p with
    | .ok merged => if merged.spec = stored.spec then none else some (.updateCapability merged)
    | .error _ => none

/-- The write that the objects in the caches ask for under a name. -/
def ask (caches : Caches) (k : String) : Option StoreCall :=
  match caches.storageClasses.peek k with
  | none => (caches.capabilities.peek k).map fun _ => .deleteCapability k
  | some c =>
    if (c.metadata.name.getD "").isEmpty then none
    else
      match caches.provisioners.peek c.provisioner with
      | none => none
      | some p => askServed (caches.capabilities.peek k) c (caches.snapshotClasses.peek k) p

variable {caches caches' : Caches} {k : String}

/-- What is asked for is the write of the decision, if there is one. -/
theorem askServed_eq (stored : Option ClassCapability) (c : StorageClass)
    (snapshots : Option SnapshotClass) (p : ProvisionerCapability) :
    askServed stored c snapshots p =
      (serve stored c snapshots p).toOption.bind Decision.call? := by
  cases stored with
  | none => rfl
  | some stored =>
    simp only [askServed, serve]
    cases stored.merge c snapshots p with
    | error fault => rfl
    | ok merged =>
      simp only [Except.map, Except.toOption, Option.bind_some]
      split <;> rfl

/-- **A decision is what the caches ask for.** -/
theorem call?_of_decide {d : Decision} (h : decide caches k = .ok d) :
    d.call? = ask caches k := by
  have ways := decides caches k
  generalize decide caches k = r at h ways
  cases ways with
  | cold | unnamed => cases h
  | absent _ _ hclass hstored | orphan _ _ hclass hstored =>
    cases h
    simp only [ask, hclass, hstored]
    rfl
  | unserved hclass hname hp =>
    cases h
    simp [ask, hclass, hname, hp, Decision.call?]
  | served _ hclass hname hp =>
    simp only [ask, hclass, hp, String.isEmpty_iff, if_neg hname, askServed_eq, h]
    rfl

/-- A pass that fails to decide could not have made a write. -/
theorem ask_eq_none_of_decide (hs : caches.allSynced = true) {fault : Fault}
    (h : decide caches k = .error fault) : ask caches k = none := by
  have ways := decides caches k
  generalize decide caches k = r at h ways
  cases ways with
  | cold kind cold =>
    rw [Caches.allSynced_iff.mp hs kind] at cold
    cases cold
  | absent | orphan | unserved => cases h
  | unnamed hclass hname => simp [ask, hclass, hname]
  | served _ hclass hname hp =>
    simp only [ask, hclass, hp, String.isEmpty_iff, if_neg hname, askServed_eq, h]
    rfl

/-! ### What is asked for -/

/-- What is asked for under a name depends on the objects of that name and on the provisioner of
its class. -/
theorem ask_congr (hclass : caches'.storageClasses.peek k = caches.storageClasses.peek k)
    (hsnap : caches'.snapshotClasses.peek k = caches.snapshotClasses.peek k)
    (hprov : ∀ c, caches.storageClasses.peek k = some c →
      caches'.provisioners.peek c.provisioner = caches.provisioners.peek c.provisioner)
    (hcap : caches'.capabilities.peek k = caches.capabilities.peek k) :
    ask caches' k = ask caches k := by
  unfold ask
  rw [hclass, hsnap, hcap]
  cases hc : caches.storageClasses.peek k with
  | none => rfl
  | some c =>
    dsimp only
    rw [hprov c hc]

/-- Whether a write fits the stored capability under a name: it is about that name, creates only
what is absent, deletes only what is present, and updates only to another spec. -/
def Fits (stored : Option ClassCapability) (k : String) : StoreCall → Prop
  | .createCapability a => displayName a = k ∧ stored = none
  | .updateCapability a => displayName a = k ∧ ∃ old, stored = some old ∧ a.spec ≠ old.spec
  | .deleteCapability n => n = k ∧ stored ≠ none
  | _ => False

/-- What is asked under the name of a served class fits what is stored there. -/
theorem fits_of_askServed (hc : caches.Keyed) {c : StorageClass}
    (hclass : caches.storageClasses.peek k = some c) {snapshots : Option SnapshotClass}
    {p : ProvisionerCapability} {call : StoreCall}
    (h : askServed (caches.capabilities.peek k) c snapshots p = some call) :
    Fits (caches.capabilities.peek k) k call := by
  have hname : displayName c = k := hc.storageClasses k c hclass
  unfold askServed at h
  cases hstored : caches.capabilities.peek k with
  | none =>
    rw [hstored] at h
    cases h
    exact ⟨hname, rfl⟩
  | some stored =>
    rw [hstored] at h
    dsimp only at h
    cases hmerge : stored.merge c snapshots p with
    | error fault => simp [hmerge] at h
    | ok merged =>
      simp only [hmerge] at h
      split at h
      · cases h
      · rename_i hspec
        cases h
        obtain ⟨hsame, hmeta, -⟩ := ClassCapability.merge_eq_ok.mp hmerge
        -- a merge keeps the metadata, and with it the name
        have hmerged : displayName merged = displayName stored :=
          congrArg Metadata.displayName hmeta
        exact ⟨hmerged.trans (hsame.trans hname), stored, rfl, hspec⟩

/-- What is asked for fits what is stored. -/
theorem fits_of_ask (hc : caches.Keyed) {call : StoreCall} (h : ask caches k = some call) :
    Fits (caches.capabilities.peek k) k call := by
  unfold ask at h
  cases hclass : caches.storageClasses.peek k with
  | none =>
    rw [hclass] at h
    obtain ⟨stored, hstored, rfl⟩ := Option.map_eq_some_iff.mp h
    exact ⟨rfl, by simp [hstored]⟩
  | some c =>
    rw [hclass] at h
    dsimp only at h
    split at h
    · cases h
    · split at h
      · cases h
      · exact fits_of_askServed hc hclass h

/-- A name whose class is absent asks for nothing but a deletion. -/
theorem ask_of_absent (h : caches.storageClasses.peek k = none) :
    ask caches k = (caches.capabilities.peek k).map fun _ => .deleteCapability k := by
  simp only [ask, h]

/-- The spec of a class that has a name and a published provisioner is asked for until it is
there. -/
theorem ask_of_served (hc : caches.Keyed) {c : StorageClass} {p : ProvisionerCapability}
    (hclass : caches.storageClasses.peek k = some c) (hname : c.metadata.name.getD "" ≠ "")
    (hp : caches.provisioners.peek c.provisioner = some p) :
    ask caches k = none ↔ ∃ a, caches.capabilities.peek k = some a ∧
      a.spec = .derive c (caches.snapshotClasses.peek k) p := by
  have hempty : (c.metadata.name.getD "").isEmpty = false := by simpa using hname
  simp only [ask, hclass, hempty, hp, Bool.false_eq_true, if_false]
  unfold askServed
  cases hstored : caches.capabilities.peek k with
  | none => simp
  | some stored =>
    -- both stand under the name, so the names agree and the merge succeeds
    have hsame : displayName stored = displayName c :=
      (hc.capabilities k stored hstored).trans (hc.storageClasses k c hclass).symm
    simp [ClassCapability.merge, hsame, eq_comm]

/-! ### Making the write -/

/-- The spec that is stored once a write has succeeded. -/
def written : StoreCall → Option ClassSpec
  | .createCapability a | .updateCapability a => some a.spec
  | _ => none

/-- A call that fits a name writes the capability of that name. -/
theorem Fits.concerns {stored : Option ClassCapability} {call : StoreCall}
    (h : Fits stored k call) : call.Concerns k := by
  cases call <;> first | exact h.1 | exact h.elim

/-- A creation under a name that is free stores the object. -/
theorem perform_create (store : MemoryStore) {a : ClassCapability}
    (h : caches.capabilities.peek (displayName a) = none) :
    store.perform caches (.createCapability a) = ({ store with revision := store.revision + 1 },
      { caches with capabilities := (caches.capabilities.apply (store.created a)).1 },
      .ok (.capability (store.created a))) :=
  congrArg (MemoryStore.answer .capability) (store.create_of_free h)

/-- An update of a stored object replaces it. -/
theorem perform_update (store : MemoryStore) {a : ClassCapability}
    (h : caches.capabilities.peek (displayName a) ≠ none) :
    store.perform caches (.updateCapability a) = ({ store with revision := store.revision + 1 },
      { caches with capabilities := (caches.capabilities.apply (store.updated a)).1 },
      .ok (.capability (store.updated a))) :=
  congrArg (MemoryStore.answer .capability) (store.update_of_present h)

/-- A deletion of a stored object removes it. -/
theorem perform_delete (store : MemoryStore) {n : String} (h : caches.capabilities.peek n ≠ none) :
    store.perform caches (.deleteCapability n) = (store,
      { caches with capabilities := (caches.capabilities.remove n).1 }, .ok .nothing) := by
  obtain ⟨a, ha⟩ := Option.ne_none_iff_exists'.mp h
  exact congrArg (MemoryStore.answer fun _ => .nothing) (store.delete_of_present ha)

/-- **A fitting write succeeds.** Afterwards the spec that it carries is stored, or nothing. -/
theorem perform_of_fits (store : MemoryStore) {call : StoreCall}
    (h : Fits (caches.capabilities.peek k) k call) :
    (∃ answer, (store.perform caches call).2.2 = .ok answer) ∧
      ((store.perform caches call).2.1.capabilities.peek k).map (·.spec) = written call := by
  cases call with
  | createCapability a =>
    obtain ⟨rfl, hfree⟩ := h
    rw [perform_create store hfree]
    exact ⟨⟨_, rfl⟩, congrArg _ (NameMap.get?_insert_self _ _ _)⟩
  | updateCapability a =>
    obtain ⟨rfl, old, hold, -⟩ := h
    rw [perform_update store (by simp [hold])]
    exact ⟨⟨_, rfl⟩, congrArg _ (NameMap.get?_insert_self _ _ _)⟩
  | deleteCapability n =>
    obtain ⟨rfl, hthere⟩ := h
    rw [perform_delete store hthere]
    exact ⟨⟨_, rfl⟩, congrArg _ (NameMap.get?_erase_self _ _)⟩
  | getProvisioner | getCapability | createProvisioner | updateProvisioner => exact h.elim

/-- What is asked for under the name of an existing class carries the spec that follows from it. -/
theorem written_of_ask {c : StorageClass} {call : StoreCall}
    (hclass : caches.storageClasses.peek k = some c) (h : ask caches k = some call) :
    c.metadata.name.getD "" ≠ "" ∧ ∃ p, caches.provisioners.peek c.provisioner = some p ∧
      written call = some (.derive c (caches.snapshotClasses.peek k) p) := by
  unfold ask at h
  rw [hclass] at h
  dsimp only at h
  split at h
  · cases h
  · rename_i hname
    refine ⟨by simpa using hname, ?_⟩
    cases hp : caches.provisioners.peek c.provisioner with
    | none => simp [hp] at h
    | some p =>
      rw [hp] at h
      refine ⟨p, rfl, ?_⟩
      dsimp only at h
      unfold askServed at h
      split at h
      · cases h
        rfl
      · split at h
        · rename_i merged hmerge
          split at h
          · cases h
          · cases h
            exact congrArg some (ClassCapability.merge_eq_ok.mp hmerge).2.2
        · cases h

/-- **One write is enough.** Once the write that was asked for is made, the name asks for nothing
more. -/
theorem ask_perform (store : MemoryStore) (hc : caches.Keyed) {call : StoreCall}
    (h : ask caches k = some call) : ask (store.perform caches call).2.1 k = none := by
  have hfits := fits_of_ask hc h
  obtain ⟨-, hwritten⟩ := perform_of_fits store hfits
  have touched := (MemoryStore.touched_perform caches call store).1
  obtain ⟨cache, hcaches, -⟩ := touched.frame hfits.concerns
  have hc' := touched.keyed hc
  rw [hcaches] at hwritten hc' ⊢
  cases hclass : caches.storageClasses.peek k with
  | none =>
    -- the capability was asked to be deleted, and is gone
    rw [ask_of_absent hclass] at h
    obtain ⟨a, -, rfl⟩ := Option.map_eq_some_iff.mp h
    have hgone : cache.peek k = none := Option.map_eq_none_iff.mp hwritten
    refine Eq.trans (ask_of_absent ?_) (Option.map_eq_none_iff.mpr hgone)
    exact hclass
  | some c =>
    -- the class and its provisioner are untouched, and the spec that follows is stored
    obtain ⟨hname, p, hp, hspec⟩ := written_of_ask hclass h
    obtain ⟨a, ha, hspeca⟩ := Option.map_eq_some_iff.mp (hwritten.trans hspec)
    exact (ask_of_served hc' hclass hname hp).mpr ⟨a, ha, hspeca⟩

end Sync

end StorageFeatures
