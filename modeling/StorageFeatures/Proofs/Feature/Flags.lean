import StorageFeatures.Feature.Basic

/-!
# Features that are advertised

A feature set is a choice of flags and a mode of expansion (`FeatureSet.ext_has`). One set is
`Within` another if it advertises no flag and no mode that the other does not. Closing the gates
for expansion and for snapshots leaves the greatest set within the given one that has neither
(`FeatureSet.within_gated_iff`).
-/

namespace StorageFeatures

/-- What can be advertised beside the mode of expansion. -/
inductive Flag where
  | topology
  | createVolume
  | attachVolume
  | listVolumes
  | cloneVolume
  | volumeStats
  | createSnapshot
  | listSnapshots
  deriving DecidableEq

/-- Whether a flag is about snapshots. -/
def Flag.isSnapshot : Flag → Bool
  | createSnapshot | listSnapshots => true
  | _ => false

namespace FeatureSet

/-- Whether a flag is advertised. -/
def has (f : FeatureSet) : Flag → Bool
  | .topology => f.topology
  | .createVolume => f.volume.create
  | .attachVolume => f.volume.attach
  | .listVolumes => f.volume.list
  | .cloneVolume => f.volume.clone
  | .volumeStats => f.volume.stats
  | .createSnapshot => f.snapshot.create
  | .listSnapshots => f.snapshot.list

/-- Nothing else belongs to a feature set. -/
theorem ext_has {f g : FeatureSet} (flags : ∀ flag, f.has flag = g.has flag)
    (expand : f.volume.expand = g.volume.expand) : f = g := by
  obtain ⟨ft, ⟨fc, fa, fl, fk, fs, fe⟩, ⟨fsc, fsl⟩⟩ := f
  obtain ⟨gt, ⟨gc, ga, gl, gk, gs, ge⟩, ⟨gsc, gsl⟩⟩ := g
  obtain rfl : ft = gt := flags .topology
  obtain rfl : fc = gc := flags .createVolume
  obtain rfl : fa = ga := flags .attachVolume
  obtain rfl : fl = gl := flags .listVolumes
  obtain rfl : fk = gk := flags .cloneVolume
  obtain rfl : fs = gs := flags .volumeStats
  obtain rfl : fsc = gsc := flags .createSnapshot
  obtain rfl : fsl = gsl := flags .listSnapshots
  obtain rfl : fe = ge := expand
  rfl

/-- The first set advertises nothing that the second does not. -/
structure Within (f g : FeatureSet) : Prop where
  flags : ∀ flag, f.has flag = true → g.has flag = true
  expand : f.volume.expand = .unknown ∨ f.volume.expand = g.volume.expand

theorem Within.refl (f : FeatureSet) : f.Within f := ⟨fun _ => id, .inr rfl⟩

/-- The features that are left where expansion and snapshots each stand open or not. -/
def gated (f : FeatureSet) (expansion snapshots : Bool) : FeatureSet :=
  { f with
    volume := { f.volume with expand := if expansion then f.volume.expand else .unknown }
    snapshot := if snapshots then f.snapshot else {} }

section Gated

variable {f g : FeatureSet} {expansion snapshots : Bool}

/-- The gate lets flags of snapshots through only with a snapshot class; the others pass. -/
theorem has_gated (flag : Flag) : (f.gated expansion snapshots).has flag =
    (f.has flag && (snapshots || !flag.isSnapshot)) := by
  cases snapshots <;> cases flag <;> simp [gated, has, Flag.isSnapshot]

/-- **The gates take away what they are for and nothing else.** -/
theorem within_gated_iff : g.Within (f.gated expansion snapshots) ↔ g.Within f ∧
    (expansion = false → g.volume.expand = .unknown) ∧
    (snapshots = false → ∀ flag, flag.isSnapshot = true → g.has flag = false) := by
  constructor
  · rintro ⟨hflags, hexpand⟩
    refine ⟨⟨fun flag h => ?_, ?_⟩, ?_, ?_⟩
    · have hgated := hflags flag h
      rw [has_gated, Bool.and_eq_true_iff] at hgated
      exact hgated.1
    · cases expansion with
      | true => exact hexpand
      | false => exact .inl (hexpand.elim id id)
    · rintro rfl
      exact hexpand.elim id id
    · rintro rfl flag hsnapshot
      refine Bool.eq_false_iff.mpr fun h => ?_
      have hgated := hflags flag h
      rw [has_gated, hsnapshot, Bool.not_true, Bool.or_false, Bool.and_false] at hgated
      cases hgated
  · rintro ⟨⟨hflags, hexpand⟩, hclosed, hnone⟩
    refine ⟨fun flag h => ?_, ?_⟩
    · rw [has_gated, hflags flag h, Bool.true_and, Bool.or_eq_true_iff]
      cases snapshots with
      | true => exact .inl rfl
      | false =>
        refine .inr ?_
        cases hsnapshot : flag.isSnapshot with
        | false => rfl
        | true => cases (hnone rfl flag hsnapshot).symm.trans h
    · cases expansion with
      | true => exact hexpand
      | false => exact .inl (hclosed rfl)

/-- What passes the gate was there before. -/
theorem gated_within : (f.gated expansion snapshots).Within f :=
  (within_gated_iff.mp (.refl _)).1

end Gated

end FeatureSet

end StorageFeatures
