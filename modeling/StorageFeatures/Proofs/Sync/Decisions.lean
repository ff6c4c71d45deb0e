import StorageFeatures.Proofs.Cache.Keyed
import StorageFeatures.Sync

/-!
# How a decision comes about

A pass looks into the caches one after the other, and what it finds in one of them says whether it
looks into the next. `Sync.Decides` lists all ways in which that can go, each with everything that
was read on the way, and `Sync.decides` says that there are no others. What is known about decisions
is read off that list.

The last way is the one of a class whose provisioner has published: `Sync.serve` says what becomes
of its capability. In keyed caches a class and its capability have the same name, so then a decision
is always reached (`Sync.serve_of_keyed`). What is left to keep a pass from a decision are cold
caches and classes without a name (`Sync.cold_or_unnamed`).
-/

namespace StorageFeatures

open Resource (displayName)

namespace Sync

/-! ### Looking into a cache -/

section Get

variable {α β : Type} [Resource α] {c : Cache α} {k : String} {f : Option α → Except Fault β}

theorem get_bind_of_synced (h : c.synced = true) (f : Option α → Except Fault β) :
    (c.get k >>= f) = f (c.peek k) := by
  rw [Cache.get_eq_ok_iff.mpr ⟨h, rfl⟩]
  rfl

/-- A cold cache stops the decision. -/
theorem get_bind_of_cold (h : c.synced = false) (f : Option α → Except Fault β) :
    (c.get k >>= f) = .error (.cacheNotSynced (Resource.kind α).name) := by
  simp [Cache.get, Cache.ensureSynced, h, bind, Except.bind]

end Get

/-! ### All ways to a decision -/

/-- What is decided under the name of a class whose provisioner has published. -/
def serve (stored : Option ClassCapability) (c : StorageClass) (snapshots : Option SnapshotClass)
    (p : ProvisionerCapability) : Except Fault Decision :=
  match stored with
  | none => .ok (.create (.derive c snapshots p))
  | some stored => (stored.merge c snapshots p).map fun merged =>
      if merged.spec = stored.spec then .keep else .update merged

/-- The fault of a class that has no name, or an empty one. -/
def unnamedFault (k : String) : Fault :=
  .invalidObject Kind.storageClass.name (k ++ ": storageclass name must be specified")

/-- The ways in which a look at the caches can go. -/
inductive Decides (caches : Caches) (k : String) : Except Fault Decision → Prop where
  /-- A cache that has to be looked into has not synced. -/
  | cold (kind : Kind) (cold : caches.isSynced kind = false) :
      Decides caches k (.error (.cacheNotSynced kind.name))
  /-- Class and capability are both absent. -/
  | absent (classes : caches.isSynced .storageClass = true)
      (capabilities : caches.isSynced .classCapability = true)
      (hclass : caches.storageClasses.peek k = none)
      (hstored : caches.capabilities.peek k = none) : Decides caches k (.ok .keep)
  /-- The class is gone and its capability is left. -/
  | orphan {stored : ClassCapability} (classes : caches.isSynced .storageClass = true)
      (capabilities : caches.isSynced .classCapability = true)
      (hclass : caches.storageClasses.peek k = none)
      (hstored : caches.capabilities.peek k = some stored) : Decides caches k (.ok (.delete k))
  | unnamed {c : StorageClass} (hclass : caches.storageClasses.peek k = some c)
      (hname : c.metadata.name.getD "" = "") : Decides caches k (.error (unnamedFault k))
  /-- The provisioner has not published its capability. -/
  | unserved {c : StorageClass} (hclass : caches.storageClasses.peek k = some c)
      (hname : c.metadata.name.getD "" ≠ "")
      (hp : caches.provisioners.peek c.provisioner = none) : Decides caches k (.ok .wait)
  | served {c : StorageClass} {p : ProvisionerCapability} (synced : caches.allSynced = true)
      (hclass : caches.storageClasses.peek k = some c) (hname : c.metadata.name.getD "" ≠ "")
      (hp : caches.provisioners.peek c.provisioner = some p) :
      Decides caches k (serve (caches.capabilities.peek k) c (caches.snapshotClasses.peek k) p)

variable {caches : Caches} {k : String}

/-- Without a class there are three ways: cold capabilities, no capability, or one to delete. -/
theorem decides_orphan (classes : caches.isSynced .storageClass = true)
    (hclass : caches.storageClasses.peek k = none) :
    Decides caches k (decideOrphan caches k) := by
  unfold decideOrphan
  cases hs : caches.capabilities.synced with
  | false =>
    rw [get_bind_of_cold hs]
    exact .cold .classCapability hs
  | true =>
    rw [get_bind_of_synced hs]
    cases hstored : caches.capabilities.peek k with
    | none => exact .absent classes hs hclass hstored
    | some stored => exact .orphan classes hs hclass hstored

/-- With a published provisioner the decision goes one of the known ways, whichever of the other
caches is cold. -/
theorem decides_served {c : StorageClass} {p : ProvisionerCapability}
    (classes : caches.isSynced .storageClass = true)
    (provisioners : caches.isSynced .provisionerCapability = true)
    (hclass : caches.storageClasses.peek k = some c) (hname : c.metadata.name.getD "" ≠ "")
    (hp : caches.provisioners.peek c.provisioner = some p) :
    Decides caches k (decideServed caches k c p) := by
  unfold decideServed
  cases hsnap : caches.snapshotClasses.synced with
  | false =>
    rw [get_bind_of_cold hsnap]
    exact .cold .snapshotClass hsnap
  | true =>
    rw [get_bind_of_synced hsnap]
    cases hcap : caches.capabilities.synced with
    | false =>
      rw [get_bind_of_cold hcap]
      exact .cold .classCapability hcap
    | true =>
      rw [get_bind_of_synced hcap]
      have synced : caches.allSynced = true := Caches.allSynced_iff.mpr fun kind => by
        cases kind <;> assumption
      have served := Decides.served synced hclass hname hp
      unfold serve at served
      cases hstored : caches.capabilities.peek k with
      | none =>
        rw [hstored] at served
        exact served
      | some stored =>
        rw [hstored] at served
        cases hmerge : stored.merge c (caches.snapshotClasses.peek k) p <;>
          simpa [hmerge, Except.map, bind, Except.bind, pure, Except.pure] using served

/-- **There are no other ways.** -/
theorem decides (caches : Caches) (k : String) : Decides caches k (decide caches k) := by
  unfold decide
  cases hs : caches.storageClasses.synced with
  | false =>
    rw [get_bind_of_cold hs]
    exact .cold .storageClass hs
  | true =>
    rw [get_bind_of_synced hs]
    cases hclass : caches.storageClasses.peek k with
    | none => exact decides_orphan hs hclass
    | some c =>
      dsimp only
      split
      · rename_i hname
        exact .unnamed hclass (by simpa using hname)
      · rename_i hname
        have hname : c.metadata.name.getD "" ≠ "" := by simpa using hname
        cases hprov : caches.provisioners.synced with
        | false =>
          rw [get_bind_of_cold hprov]
          exact .cold .provisionerCapability hprov
        | true =>
          rw [get_bind_of_synced hprov]
          cases hp : caches.provisioners.peek c.provisioner with
          | none => exact .unserved hclass hname hp
          | some p => exact decides_served hs hprov hclass hname hp

/-! ### Classes that are served -/

/-- A class and the capability under its key have the same name, so that a decision is reached. -/
theorem serve_of_keyed (keyed : caches.Keyed) {c : StorageClass}
    (hclass : caches.storageClasses.peek k = some c) (snapshots : Option SnapshotClass)
    (p : ProvisionerCapability) :
    serve (caches.capabilities.peek k) c snapshots p =
      .ok (match caches.capabilities.peek k with
        | none => .create (.derive c snapshots p)
        | some stored =>
          if ClassSpec.derive c snapshots p = stored.spec then .keep
          else .update { stored with spec := .derive c snapshots p }) := by
  unfold serve
  cases hstored : caches.capabilities.peek k with
  | none => rfl
  | some stored =>
    have hsame : displayName stored = displayName c :=
      (keyed.capabilities k stored hstored).trans (keyed.storageClasses k c hclass).symm
    simp only [ClassCapability.merge, if_pos hsame]
    rfl

/-! ### Classes without a name -/

/-- The class under a key has no name, or an empty one. -/
def Unnamed (caches : Caches) (k : String) : Prop :=
  ∃ c, caches.storageClasses.peek k = some c ∧ c.metadata.name.getD "" = ""

/-- **What keeps a pass from a decision** over keyed caches is a cold cache, or a class without a
name. -/
theorem cold_or_unnamed (keyed : caches.Keyed) {fault : Fault}
    (h : decide caches k = .error fault) :
    (∃ kind, caches.isSynced kind = false ∧ fault = .cacheNotSynced kind.name) ∨
      Unnamed caches k ∧ fault = unnamedFault k := by
  have ways := decides caches k
  generalize decide caches k = r at h ways
  cases ways with
  | cold kind cold =>
    cases h
    exact .inl ⟨kind, cold, rfl⟩
  | absent | orphan | unserved => cases h
  | unnamed hclass hname =>
    cases h
    exact .inr ⟨⟨_, hclass, hname⟩, rfl⟩
  | served _ hclass =>
    rw [serve_of_keyed keyed hclass] at h
    cases h

/-- A class without a name is refused whether or not anything else has synced. -/
theorem decide_of_unnamed (classes : caches.isSynced .storageClass = true) (h : Unnamed caches k) :
    decide caches k = .error (unnamedFault k) := by
  obtain ⟨c, hclass, hname⟩ := h
  rw [decide, get_bind_of_synced classes, hclass]
  simp only [hname]
  rfl

end Sync

end StorageFeatures
