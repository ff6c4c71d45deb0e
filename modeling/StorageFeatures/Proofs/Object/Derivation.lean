import StorageFeatures.Derive
import StorageFeatures.Proofs.Feature.Flags

/-!
# What is available through a class

The capability of a storage class advertises what the provisioner reports, behind two gates: that
the class allows expansion, and that there is a snapshot class of its name that the provisioner
serves. `ClassCapability.Derivation` says what this comes to, for an object that is created and for
one that is stored already: both get the same spec, a stored object keeps its metadata, and an
object of another name is refused.
-/

namespace StorageFeatures

open Resource (displayName)

variable {c : StorageClass} {snapshots : Option SnapshotClass} {p : ProvisionerCapability}

/-- There is a snapshot class of the name of the storage class that the provisioner serves. -/
def SnapshotsServed (c : StorageClass) (snapshots : Option SnapshotClass)
    (p : ProvisionerCapability) : Prop :=
  ∃ s, snapshots = some s ∧ displayName s = displayName c ∧ s.driver = displayName p

/-- Snapshots are served if some snapshot class goes with the class and its provisioner. -/
theorem any_pairsWith_iff :
    (snapshots.any fun s => s.pairsWith c p) = true ↔ SnapshotsServed c snapshots p := by
  simp [SnapshotsServed, SnapshotClass.pairsWith, Option.any_eq_true]

/-- Expansion is allowed only where the class says so; saying nothing does not allow it. -/
theorem allowsExpansion_iff : c.allowsExpansion = true ↔ c.allowVolumeExpansion = some true := by
  unfold StorageClass.allowsExpansion
  cases c.allowVolumeExpansion <;> simp

namespace ClassSpec

/-- The features that are derived are the reported ones behind the two gates. -/
theorem features_derive : (derive c snapshots p).features =
    p.spec.features.gated c.allowsExpansion (snapshots.any fun s => s.pairsWith c p) :=
  rfl

/-- What follows from a class, a snapshot class and what a provisioner reports. -/
structure Derivation (c : StorageClass) (snapshots : Option SnapshotClass)
    (p : ProvisionerCapability) (s : ClassSpec) : Prop where
  provisioner : s.provisioner = c.provisioner
  /-- Nothing is advertised that the provisioner does not report. -/
  within : s.features.Within p.spec.features
  /-- Whatever it reports is advertised if it has to do with neither gate. -/
  reported : ∀ flag, flag.isSnapshot = false → s.features.has flag = p.spec.features.has flag
  expandable : c.allowVolumeExpansion = some true →
    s.features.volume.expand = p.spec.features.volume.expand
  not_expandable : c.allowVolumeExpansion ≠ some true → s.features.volume.expand = .unknown
  served : SnapshotsServed c snapshots p → s.features.snapshot = p.spec.features.snapshot
  not_served : ¬ SnapshotsServed c snapshots p → s.features.snapshot = ⟨false, false⟩
  /-- No set of features that respects the gates advertises more. -/
  greatest : ∀ f : FeatureSet, f.Within p.spec.features →
    (c.allowVolumeExpansion ≠ some true → f.volume.expand = .unknown) →
    (¬ SnapshotsServed c snapshots p → ∀ flag, flag.isSnapshot = true → f.has flag = false) →
    f.Within s.features

/-- What is derived obeys every rule of derivation. -/
theorem derivation_derive : Derivation c snapshots p (derive c snapshots p) where
  provisioner := rfl
  within := FeatureSet.gated_within
  reported flag h := by
    rw [features_derive, FeatureSet.has_gated, h, Bool.not_false, Bool.or_true, Bool.and_true]
  expandable h := if_pos (allowsExpansion_iff.mpr h)
  not_expandable h := if_neg (mt allowsExpansion_iff.mp h)
  served h := if_pos (any_pairsWith_iff.mpr h)
  not_served h := if_neg (mt any_pairsWith_iff.mp h)
  greatest f hwithin hclosed hnone := by
    rw [features_derive]
    refine FeatureSet.within_gated_iff.mpr ⟨hwithin, fun h => hclosed ?_, fun h => hnone ?_⟩
    · exact mt allowsExpansion_iff.mpr (Bool.eq_false_iff.mp h)
    · exact mt any_pairsWith_iff.mpr (Bool.eq_false_iff.mp h)

end ClassSpec

namespace ClassCapability

variable {stored merged : ClassCapability}

/-- Only objects with different names cannot be merged. -/
theorem merge_eq_error {fault : Fault} : stored.merge c snapshots p = .error fault ↔
    displayName stored ≠ displayName c ∧
      fault = .nameMismatch (displayName stored) (displayName c) := by
  unfold merge
  split <;> simp_all [eq_comm]

/-- What becomes of a new object and of one that is stored. -/
structure Derivation (c : StorageClass) (snapshots : Option SnapshotClass)
    (p : ProvisionerCapability) (stored : ClassCapability) : Prop where
  spec : ClassSpec.Derivation c snapshots p (derive c snapshots p).spec
  /-- A new object is named after its class and carries nothing else. -/
  metadata : (derive c snapshots p).metadata = { name := some (displayName c) }
  /-- An object of another name is refused, and no other object is. -/
  refused : (∃ fault, stored.merge c snapshots p = .error fault) ↔
    displayName stored ≠ displayName c
  mismatch : ∀ fault, stored.merge c snapshots p = .error fault →
    fault = .nameMismatch (displayName stored) (displayName c)
  /-- A stored object keeps its metadata and gets the spec of a new one. -/
  merged : ∀ merged, stored.merge c snapshots p = .ok merged →
    merged.metadata = stored.metadata ∧ merged.spec = (derive c snapshots p).spec
  /-- Once it has that spec it stays as it is. -/
  settled : ∀ merged, stored.merge c snapshots p = .ok merged →
    merged.merge c snapshots p = .ok merged
  new_settled : (derive c snapshots p).merge c snapshots p = .ok (derive c snapshots p)

/-- **What is derived.** The features are the greatest ones that the provisioner reports and both
gates let through; a merge fails exactly on another name, keeps the metadata, and is settled once it
is made. -/
theorem derivation_of_inputs (c : StorageClass) (snapshots : Option SnapshotClass)
    (p : ProvisionerCapability) (stored : ClassCapability) : Derivation c snapshots p stored where
  spec := ClassSpec.derivation_derive
  metadata := rfl
  refused := by
    refine ⟨fun ⟨fault, h⟩ => (merge_eq_error.mp h).1, fun h => ⟨_, merge_eq_error.mpr ⟨h, rfl⟩⟩⟩
  mismatch fault h := (merge_eq_error.mp h).2
  merged merged h := (merge_eq_ok.mp h).2
  settled merged h := by
    obtain ⟨hname, hmetadata, hspec⟩ := merge_eq_ok.mp h
    have hsame : displayName merged = displayName stored := congrArg Metadata.displayName hmetadata
    exact merge_eq_ok.mpr ⟨hsame.trans hname, rfl, hspec⟩
  new_settled := merge_eq_ok.mpr ⟨displayName_derive c snapshots p, rfl, rfl⟩

end ClassCapability

end StorageFeatures
