import StorageFeatures.Object.Capability
import StorageFeatures.Object.SnapshotClass
import StorageFeatures.Proofs.Json.Rewording

/-!
# Objects in other words

Users and servers write the same object in different words: in another order, with members that
mean nothing to this library, or without what is the default anyway. For every record there is a
`layout` that says which names mean something in it and what may be left out, and a lemma
`ofJson_of_rewords`: whatever the words, the record that was written is read.

The generation of an object is the only value that a writer could put beyond what a reader takes;
`Metadata.InRange` says that it was not, and everything that was read is in range.
-/

namespace StorageFeatures

open Json

/-! ### Features -/

namespace VolumeFeatures

/-- The flags and the mode may be left out where they are the default. -/
def layout : Layout where
  known := ["attach", "clone", "create", "expandMode", "list", "stats"]
  default? k := if k = "expandMode" then some ExpandMode.unknown.toJson else some (.bool false)

/-- The flags of a volume are read in any order, and those left out are false. -/
theorem ofJson_of_rewords {v : VolumeFeatures} {j : Json} (h : layout.Rewords v.toJson j) :
    ofJson j = .ok v := by
  obtain ⟨create, attach, list, clone, stats, expand⟩ := v
  obtain ⟨ms, rfl, worded⟩ := h.worded (by simp)
  obtain ⟨_, hattach, rfl⟩ := flag_of_worded (worded "attach" (by decide)) rfl rfl rfl
  obtain ⟨_, hclone, rfl⟩ := flag_of_worded (worded "clone" (by decide)) rfl rfl rfl
  obtain ⟨_, hcreate, rfl⟩ := flag_of_worded (worded "create" (by decide)) rfl rfl rfl
  obtain ⟨_, hlist, rfl⟩ := flag_of_worded (worded "list" (by decide)) rfl rfl rfl
  obtain ⟨_, hstats, rfl⟩ := flag_of_worded (worded "stats" (by decide)) rfl rfl rfl
  obtain ⟨mode, hexpand, rfl⟩ : ∃ o, field ms "expandMode" ExpandMode.ofJson = .ok o ∧
      o.getD .unknown = expand := by
    refine field_of_worded_default (worded "expandMode" (by decide)) rfl
      (ExpandMode.ofJson_toJson expand) ?_ rfl (ExpandMode.ofJson_toJson .unknown)
    rintro _ rfl
    exact ExpandMode.ofJson_toJson expand
  simp only [ofJson, hattach, hclone, hcreate, hexpand, hlist, hstats]
  rfl

end VolumeFeatures

namespace SnapshotFeatures

def layout : Layout where
  known := ["create", "list"]
  default? _ := some (.bool false)

theorem ofJson_of_rewords {s : SnapshotFeatures} {j : Json} (h : layout.Rewords s.toJson j) :
    ofJson j = .ok s := by
  obtain ⟨create, list⟩ := s
  obtain ⟨ms, rfl, worded⟩ := h.worded (by simp)
  obtain ⟨_, hcreate, rfl⟩ := flag_of_worded (worded "create" (by decide)) rfl rfl rfl
  obtain ⟨_, hlist, rfl⟩ := flag_of_worded (worded "list" (by decide)) rfl rfl rfl
  simp only [ofJson, hcreate, hlist]
  rfl

end SnapshotFeatures

namespace FeatureSet

/-- Every field may be left out where it is the default. -/
def layout : Layout where
  known := ["snapshot", "topology", "volume"]
  inside
    | "snapshot" => SnapshotFeatures.layout.Rewords
    | "volume" => VolumeFeatures.layout.Rewords
    | _ => Eq
  same k j := by
    split
    · exact .refl j
    · exact .refl j
    · rfl
  default?
    | "snapshot" => some ({} : SnapshotFeatures).toJson
    | "volume" => some ({} : VolumeFeatures).toJson
    | _ => some (.bool false)

theorem ofJson_of_rewords {f : FeatureSet} {j : Json} (h : layout.Rewords f.toJson j) :
    ofJson j = .ok f := by
  obtain ⟨topology, volume, snapshot⟩ := f
  obtain ⟨ms, rfl, worded⟩ := h.worded (by simp)
  obtain ⟨_, hsnapshot, rfl⟩ := field_of_worded_default (worded "snapshot" (by decide)) rfl
    snapshot.ofJson_toJson (fun _ => SnapshotFeatures.ofJson_of_rewords) rfl
    (SnapshotFeatures.ofJson_toJson {})
  obtain ⟨_, htopology, rfl⟩ := flag_of_worded (worded "topology" (by decide)) rfl rfl rfl
  obtain ⟨_, hvolume, rfl⟩ := field_of_worded_default (worded "volume" (by decide)) rfl
    volume.ofJson_toJson (fun _ => VolumeFeatures.ofJson_of_rewords) rfl
    (VolumeFeatures.ofJson_toJson {})
  simp only [ofJson, hsnapshot, htopology, hvolume]
  rfl

end FeatureSet

/-! ### Metadata -/

namespace Metadata

/-- The names that mean something in the metadata of any object. -/
def layout : Layout where
  known := ["annotations", "creationTimestamp", "deletionGracePeriodSeconds", "deletionTimestamp",
    "finalizers", "generateName", "generation", "labels", "managedFields", "name", "namespace",
    "ownerReferences", "resourceVersion", "selfLink", "uid"]
  inside
    | "annotations" | "labels" => Reorders
    | _ => Eq
  same k j := by
    split
    · exact .refl j
    · exact .refl j
    · rfl

/-- The generation has 64 bits. -/
def InRange (m : Metadata) : Prop :=
  ∀ g ∈ m.generation, Int64.minValue.toInt ≤ g ∧ g ≤ Int64.maxValue.toInt

/-- **Metadata is read by look-ups**, in whatever words these find what was written. -/
theorem ofJson_of_worded {m : Metadata} (inRange : m.InRange) {ms : List (String × Json)}
    (worded : ∀ k ∈ layout.known, layout.Worded k (lookup k m.members) (lookup k ms)) :
    ofJson (.object ms) = .ok m := by
  -- a field whose value stays as it is
  have plain {α : Type} {k : String} {read : Reads α} {o : Option α} (write : α → Json)
      (hk : k ∈ layout.known) (hinside : layout.inside k = Eq)
      (written : lookup k m.members = o.map write)
      (hread : ∀ a ∈ o, readOption read (write a) = .ok (some a)) : lastField ms k read = .ok o :=
    lastField_of_worded (worded k hk) rfl written fun a ha j' words => by
      rw [hinside] at words
      exact words ▸ hread a ha
  -- a field with texts under names
  have names {k : String} {o : Option (NameMap String)} (hk : k ∈ layout.known)
      (hinside : layout.inside k = Reorders) (written : lookup k m.members = o.map ofNames) :
      lastField ms k readNames = .ok o :=
    lastField_of_worded (worded k hk) rfl written fun a ha j' words => by
      rw [hinside] at words
      exact readOption_of_reorders words
  have hannotations : lastField ms "annotations" readNames = .ok m.annotations :=
    names (by decide) rfl (by simp [members, lookup_append])
  have hfinalizers : lastField ms "finalizers" (readList readString) = .ok m.finalizers :=
    plain strings (by decide) rfl (by simp [members, lookup_append]) fun a _ =>
      congrArg (Except.map some) (readList_strings a)
  have hgenerateName : lastField ms "generateName" readString = .ok m.generateName :=
    plain .string (by decide) rfl (by simp [members, lookup_append]) fun _ _ => rfl
  have hgeneration : lastField ms "generation" readInt64 = .ok m.generation :=
    plain .int (by decide) rfl (by simp [members, lookup_append]) fun g hg =>
      congrArg (Except.map some) (readInt64_int (inRange g hg))
  have hlabels : lastField ms "labels" readNames = .ok m.labels :=
    names (by decide) rfl (by simp [members, lookup_append])
  have hname : lastField ms "name" readString = .ok m.name :=
    plain .string (by decide) rfl (by simp [members, lookup_append]) fun _ _ => rfl
  have hnamespace : lastField ms "namespace" readString = .ok m.namespaceName :=
    plain .string (by decide) rfl (by simp [members, lookup_append]) fun _ _ => rfl
  have hresourceVersion : lastField ms "resourceVersion" readString = .ok m.resourceVersion :=
    plain .string (by decide) rfl (by simp [members, lookup_append]) fun _ _ => rfl
  have huid : lastField ms "uid" readString = .ok m.uid :=
    plain .string (by decide) rfl (by simp [members, lookup_append]) fun _ _ => rfl
  simp only [ofJson, hannotations, hfinalizers, hgenerateName, hgeneration, hlabels, hname,
    hnamespace, hresourceVersion, huid]
  rfl

/-- No name is written twice. -/
theorem nodup_members (m : Metadata) : (m.members.map (·.1)).Nodup := by
  have names : (m.members.map (·.1)).Sublist ["annotations", "finalizers", "generateName",
      "generation", "labels", "name", "namespace", "resourceVersion", "uid"] := by
    simp only [members, List.map_append]
    exact (((((((member?_sublist.append member?_sublist).append member?_sublist).append
      member?_sublist).append member?_sublist).append member?_sublist).append
      member?_sublist).append member?_sublist).append member?_sublist
  exact names.nodup (by decide)

/-- Metadata is read in any order of its members. -/
theorem ofJson_of_rewords {m : Metadata} {j : Json} (inRange : m.InRange)
    (h : layout.Rewords m.toJson j) : ofJson j = .ok m := by
  obtain ⟨ms, rfl, worded⟩ := h.worded m.nodup_members
  exact ofJson_of_worded inRange fun k hk => (worded k hk).2

/-- Metadata that was read has a generation of 64 bits. -/
theorem inRange_of_ofJson {m : Metadata} {j : Json} (h : ofJson j = .ok m) : m.InRange := by
  unfold ofJson at h
  split at h
  · obtain ⟨annotations, -, h⟩ := exists_of_bind_eq_ok h
    obtain ⟨finalizers, -, h⟩ := exists_of_bind_eq_ok h
    obtain ⟨generateName, -, h⟩ := exists_of_bind_eq_ok h
    obtain ⟨generation, hgeneration, h⟩ := exists_of_bind_eq_ok h
    obtain ⟨labels, -, h⟩ := exists_of_bind_eq_ok h
    obtain ⟨name, -, h⟩ := exists_of_bind_eq_ok h
    obtain ⟨namespaceName, -, h⟩ := exists_of_bind_eq_ok h
    obtain ⟨resourceVersion, -, h⟩ := exists_of_bind_eq_ok h
    obtain ⟨uid, -, h⟩ := exists_of_bind_eq_ok h
    obtain rfl := Except.ok.inj h
    rintro g rfl
    obtain ⟨_, hread⟩ := exists_of_lastField hgeneration
    exact range_of_readInt64 hread
  · cases h

end Metadata

/-! ### Capabilities -/

namespace PluginInfo

def layout : Layout where
  known := ["name", "version"]

theorem ofJson_of_rewords {p : PluginInfo} {j : Json} (h : layout.Rewords p.toJson j) :
    ofJson j = .ok p := by
  obtain ⟨name, version⟩ := p
  obtain ⟨ms, rfl, worded⟩ := h.worded (by simp)
  have hname := text_of_worded (worded "name" (by decide)) rfl rfl rfl
  have hversion := text_of_worded (worded "version" (by decide)) rfl rfl rfl
  simp only [ofJson, hname, hversion]
  rfl

end PluginInfo

namespace ProvisionerSpec

/-- The features may be left out where they are the default. -/
def layout : Layout where
  known := ["features", "pluginInfo"]
  inside
    | "features" => FeatureSet.layout.Rewords
    | "pluginInfo" => PluginInfo.layout.Rewords
    | _ => Eq
  same k j := by
    split
    · exact .refl j
    · exact .refl j
    · rfl
  default?
    | "features" => some ({} : FeatureSet).toJson
    | _ => none

theorem ofJson_of_rewords {s : ProvisionerSpec} {j : Json} (h : layout.Rewords s.toJson j) :
    ofJson j = .ok s := by
  obtain ⟨plugin, features⟩ := s
  obtain ⟨ms, rfl, worded⟩ := h.worded (by simp)
  obtain ⟨_, hfeatures, rfl⟩ := field_of_worded_default (worded "features" (by decide)) rfl
    features.ofJson_toJson (fun _ => FeatureSet.ofJson_of_rewords) rfl (FeatureSet.ofJson_toJson {})
  have hplugin : field ms "pluginInfo" PluginInfo.ofJson = .ok (some plugin) :=
    field_of_worded_some (worded "pluginInfo" (by decide)) rfl rfl
      fun _ => PluginInfo.ofJson_of_rewords
  simp only [ofJson, hfeatures, hplugin]
  rfl

end ProvisionerSpec

namespace ClassSpec

/-- The features may be left out where they are the default. -/
def layout : Layout where
  known := ["features", "provisioner"]
  inside
    | "features" => FeatureSet.layout.Rewords
    | _ => Eq
  same k j := by
    split
    · exact .refl j
    · rfl
  default?
    | "features" => some ({} : FeatureSet).toJson
    | _ => none

theorem ofJson_of_rewords {s : ClassSpec} {j : Json} (h : layout.Rewords s.toJson j) :
    ofJson j = .ok s := by
  obtain ⟨provisioner, features⟩ := s
  obtain ⟨ms, rfl, worded⟩ := h.worded (by simp)
  obtain ⟨_, hfeatures, rfl⟩ := field_of_worded_default (worded "features" (by decide)) rfl
    features.ofJson_toJson (fun _ => FeatureSet.ofJson_of_rewords) rfl (FeatureSet.ofJson_toJson {})
  have hprovisioner := text_of_worded (worded "provisioner" (by decide)) rfl rfl rfl
  simp only [ofJson, hfeatures, hprovisioner]
  rfl

end ClassSpec

/-- An object of a capability kind, with the layout of its spec. -/
def capabilityLayout (spec : Layout) : Layout where
  known := ["apiVersion", "kind", "metadata", "spec"]
  inside
    | "metadata" => Metadata.layout.Rewords
    | "spec" => spec.Rewords
    | _ => Eq
  same k j := by
    split
    · exact .refl j
    · exact .refl j
    · rfl

/-- A capability is read in other words if its specification is. -/
theorem readCapability_of_rewords {σ : Type} {kind : Kind} {m : Metadata} (inRange : m.InRange)
    {l : Layout} {spec : Json} {readSpec : Reads σ} {s : σ}
    (hspec : ∀ j, l.Rewords spec j → readSpec j = .ok s) {j : Json}
    (h : (capabilityLayout l).Rewords (capabilityToJson kind m spec) j) :
    readCapability kind readSpec j = .ok (m, s) := by
  obtain ⟨ms, rfl, worded⟩ := h.worded (by simp)
  have hmetadata : field ms "metadata" Metadata.ofJson = .ok (some m) :=
    field_of_worded_some (worded "metadata" (by simp [capabilityLayout])) rfl rfl
      fun _ => Metadata.ofJson_of_rewords inRange
  have hspec' : field ms "spec" readSpec = .ok (some s) :=
    field_of_worded_some (worded "spec" (by simp [capabilityLayout])) rfl rfl hspec
  simp only [readCapability, hmetadata, hspec']
  rfl

/-- The numbers of metadata that was read are in range. -/
theorem inRange_of_readCapability {σ : Type} {kind : Kind} {readSpec : Reads σ} {j : Json}
    {m : Metadata} {s : σ} (h : readCapability kind readSpec j = .ok (m, s)) : m.InRange := by
  unfold readCapability at h
  split at h
  · obtain ⟨metadata, hmetadata, h⟩ := exists_of_bind_eq_ok h
    obtain ⟨spec, -, h⟩ := exists_of_bind_eq_ok h
    obtain ⟨m', hm', h⟩ := exists_of_bind_eq_ok h
    obtain ⟨s', -, h⟩ := exists_of_bind_eq_ok h
    obtain ⟨rfl, rfl⟩ := Prod.mk.inj (Except.ok.inj h)
    obtain ⟨j, hread⟩ := exists_of_field (eq_some_of_require hm' ▸ hmetadata)
    exact Metadata.inRange_of_ofJson hread
  · obtain ⟨metadata, hmetadata, h⟩ := exists_of_bind_eq_ok h
    obtain ⟨m', hm', h⟩ := exists_of_bind_eq_ok h
    obtain ⟨spec, -, h⟩ := exists_of_bind_eq_ok h
    obtain ⟨s', -, h⟩ := exists_of_bind_eq_ok h
    obtain ⟨_, -, h⟩ := exists_of_bind_eq_ok h
    obtain ⟨rfl, rfl⟩ := Prod.mk.inj (Except.ok.inj h)
    obtain ⟨j, hread⟩ := exists_of_item (eq_some_of_requireItem hm' ▸ hmetadata)
    exact Metadata.inRange_of_ofJson hread
  · cases h

namespace ProvisionerCapability

def layout : Layout := capabilityLayout ProvisionerSpec.layout

theorem ofJson_of_rewords {p : ProvisionerCapability} {j : Json} (inRange : p.metadata.InRange)
    (h : layout.Rewords p.toJson j) : ofJson j = .ok p := by
  rw [ofJson, readCapability_of_rewords inRange (fun _ => ProvisionerSpec.ofJson_of_rewords) h]
  rfl

theorem inRange_of_ofJson {p : ProvisionerCapability} {j : Json} (h : ofJson j = .ok p) :
    p.metadata.InRange := by
  obtain ⟨_, hread, h⟩ := exists_of_bind_eq_ok h
  obtain rfl := Except.ok.inj h
  exact inRange_of_readCapability hread

end ProvisionerCapability

namespace ClassCapability

def layout : Layout := capabilityLayout ClassSpec.layout

theorem ofJson_of_rewords {c : ClassCapability} {j : Json} (inRange : c.metadata.InRange)
    (h : layout.Rewords c.toJson j) : ofJson j = .ok c := by
  rw [ofJson, readCapability_of_rewords inRange (fun _ => ClassSpec.ofJson_of_rewords) h]
  rfl

theorem inRange_of_ofJson {c : ClassCapability} {j : Json} (h : ofJson j = .ok c) :
    c.metadata.InRange := by
  obtain ⟨_, hread, h⟩ := exists_of_bind_eq_ok h
  obtain rfl := Except.ok.inj h
  exact inRange_of_readCapability hread

end ClassCapability

/-! ### Snapshot classes -/

namespace SnapshotClass

/-- Empty metadata may be left out. -/
def layout : Layout where
  known := ["deletionPolicy", "driver", "metadata", "parameters"]
  inside
    | "metadata" => Metadata.layout.Rewords
    | "parameters" => Reorders
    | _ => Eq
  same k j := by
    split
    · exact .refl j
    · exact .refl j
    · rfl
  default?
    | "metadata" => some ({} : Metadata).toJson
    | _ => none

/-- A snapshot class is read in other words. -/
theorem ofJson_of_rewords {c : SnapshotClass} {j : Json} (inRange : c.metadata.InRange)
    (h : layout.Rewords c.toJson j) : ofJson j = .ok c := by
  obtain ⟨metadata, driver, deletionPolicy, parameters⟩ := c
  -- no name is written twice
  have names : ((Json.member? "deletionPolicy" Json.string deletionPolicy ++
      [("driver", Json.string driver), ("metadata", metadata.toJson)] ++
      Json.member? "parameters" ofNames parameters).map (·.1)).Sublist layout.known := by
    rw [List.map_append, List.map_append]
    exact (member?_sublist.append (.refl ["driver", "metadata"])).append member?_sublist
  obtain ⟨ms, rfl, worded⟩ := h.worded (names.nodup (by decide))
  have hpolicy : field ms "deletionPolicy" (readOption readString) =
      .ok (deletionPolicy.map some) :=
    field_of_worded .string (worded "deletionPolicy" (by decide)) rfl
      (by simp [lookup, lookup_append]) fun s _ j' words => by
        obtain rfl : Json.string s = j' := words
        rfl
  have hdriver : field ms "driver" readString = .ok (some driver) :=
    text_of_worded (worded "driver" (by decide)) (by simp [lookup, lookup_append]) rfl rfl
  obtain ⟨_, hmetadata, rfl⟩ : ∃ o, field ms "metadata" Metadata.ofJson = .ok o ∧
      o.getD {} = metadata :=
    field_of_worded_default (worded "metadata" (by decide))
      (by simp [lookup, lookup_append]) (Metadata.ofJson_of_rewords inRange (.refl _))
      (fun _ => Metadata.ofJson_of_rewords inRange) rfl rfl
  have hparameters : field ms "parameters" (readOption readNames) = .ok (parameters.map some) :=
    field_of_worded ofNames (worded "parameters" (by decide)) rfl
      (by simp [lookup, lookup_append]) fun _ _ _ => readOption_of_reorders
  simp only [ofJson, hpolicy, hdriver, hmetadata, hparameters]
  cases deletionPolicy <;> cases parameters <;> rfl

/-- The numbers of a snapshot class that was read are in range. -/
theorem inRange_of_ofJson {c : SnapshotClass} {j : Json} (h : ofJson j = .ok c) :
    c.metadata.InRange := by
  -- metadata that was left out has no generation
  have hmetadata {o : Option Metadata} (ho : ∀ m ∈ o, m.InRange) : (o.getD {}).InRange := by
    cases o with
    | none => exact nofun
    | some m => exact ho m rfl
  unfold ofJson at h
  split at h
  · obtain ⟨deletionPolicy, -, h⟩ := exists_of_bind_eq_ok h
    obtain ⟨driver, -, h⟩ := exists_of_bind_eq_ok h
    obtain ⟨metadata, hread, h⟩ := exists_of_bind_eq_ok h
    obtain ⟨parameters, -, h⟩ := exists_of_bind_eq_ok h
    obtain ⟨driver, -, h⟩ := exists_of_bind_eq_ok h
    obtain rfl := Except.ok.inj h
    refine hmetadata fun m hm => ?_
    obtain ⟨j, hm⟩ := exists_of_field (hm ▸ hread)
    exact Metadata.inRange_of_ofJson hm
  · obtain ⟨metadata, hread, h⟩ := exists_of_bind_eq_ok h
    obtain ⟨driver, -, h⟩ := exists_of_bind_eq_ok h
    obtain ⟨driver, -, h⟩ := exists_of_bind_eq_ok h
    obtain ⟨deletionPolicy, -, h⟩ := exists_of_bind_eq_ok h
    obtain ⟨parameters, -, h⟩ := exists_of_bind_eq_ok h
    obtain ⟨_, -, h⟩ := exists_of_bind_eq_ok h
    obtain rfl := Except.ok.inj h
    refine hmetadata fun m hm => ?_
    obtain ⟨j, hm⟩ := exists_of_item (hm ▸ hread)
    exact Metadata.inRange_of_ofJson hm
  · cases h

end SnapshotClass

end StorageFeatures
