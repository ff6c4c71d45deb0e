import StorageFeatures.Proofs.Json.RoundTrip
import StorageFeatures.Proofs.Object.Rewording

/-!
# Objects that are read back

A loop that writes what it wants and compares it with what it reads is at rest only if nothing is
lost in between. `faithful_objects` says that nothing is, of a set of features and of the objects
of the three kinds that this library describes itself: their text is read back, what was written
can be put in other words and is still the same object, and any document that is accepted stands
for an object that comes back.

The text is that of a document which can be read (`Json.Readable`): it does not nest deeply, and
its one integer, the generation, has 64 bits.
-/

namespace StorageFeatures

open Json

/-! ### Documents that can be read -/

section

variable {depth : Nat}

theorem Json.readable_ofNames (m : NameMap String) (deep : 1 < depth) :
    (ofNames m).Readable depth := by
  refine ⟨deep, readableMembers_iff.mpr fun a ha => ?_⟩
  obtain ⟨b, -, rfl⟩ := List.mem_map.mp ha
  trivial

theorem Json.readable_strings (l : List String) (deep : 1 < depth) :
    (strings l).Readable depth := by
  refine ⟨deep, readableItems_iff.mpr fun j hj => ?_⟩
  obtain ⟨s, -, rfl⟩ := List.mem_map.mp hj
  trivial

/-- Labels and annotations stand inside of the metadata. -/
theorem Metadata.readable_members {m : Metadata} (inRange : m.InRange) (deep : 1 < depth) :
    ReadableMembers depth m.members := by
  have hgeneration (g : Int) (hg : g ∈ m.generation) : (Json.int g).Readable depth := by
    have hhigh : Int64.maxValue.toInt ≤ (Reading.wordMax : Int) := by decide
    obtain ⟨low, high⟩ := inRange g hg
    exact ⟨low, Int.le_trans high hhigh⟩
  simp only [members, readableMembers_append]
  refine ⟨⟨⟨⟨⟨⟨⟨⟨?_, ?_⟩, ?_⟩, ?_⟩, ?_⟩, ?_⟩, ?_⟩, ?_⟩, ?_⟩
  · exact readableMembers_member? fun l _ => readable_ofNames l deep
  · exact readableMembers_member? fun l _ => readable_strings l deep
  · exact readableMembers_member? fun _ _ => trivial
  · exact readableMembers_member? hgeneration
  · exact readableMembers_member? fun l _ => readable_ofNames l deep
  all_goals exact readableMembers_member? fun _ _ => trivial

/-- Metadata is nested two levels deep. -/
theorem Metadata.readable_toJson {m : Metadata} (inRange : m.InRange) (deep : 2 < depth) :
    m.toJson.Readable depth :=
  ⟨by omega, readable_members inRange (by omega)⟩

theorem FeatureSet.readable_toJson (f : FeatureSet) (deep : 2 < depth) :
    f.toJson.Readable depth := by
  have hinner : 1 < depth - 1 := by omega
  exact ⟨by omega, ⟨hinner, trivial, trivial, trivial⟩, trivial,
    ⟨hinner, trivial, trivial, trivial, trivial, trivial, trivial, trivial⟩, trivial⟩

theorem ProvisionerSpec.readable_toJson (s : ProvisionerSpec) (deep : 3 < depth) :
    s.toJson.Readable depth := by
  have hinner : 1 < depth - 1 := by omega
  exact ⟨by omega, s.features.readable_toJson (by omega), ⟨hinner, trivial, trivial, trivial⟩,
    trivial⟩

theorem ClassSpec.readable_toJson (s : ClassSpec) (deep : 3 < depth) : s.toJson.Readable depth :=
  ⟨by omega, s.features.readable_toJson (by omega), trivial, trivial⟩

/-- A capability can be read back if its specification can. -/
theorem readable_capabilityToJson {kind : Kind} {m : Metadata} (inRange : m.InRange) {spec : Json}
    (hspec : spec.Readable 127) : (capabilityToJson kind m spec).Readable 128 :=
  ⟨by decide, trivial, trivial, Metadata.readable_toJson inRange (by decide), hspec, trivial⟩

theorem SnapshotClass.readable_toJson {c : SnapshotClass} (inRange : c.metadata.InRange) :
    c.toJson.Readable 128 := by
  refine ⟨by decide, ?_⟩
  simp only [readableMembers_append]
  refine ⟨⟨?_, ?_⟩, ?_⟩
  · exact readableMembers_member? fun _ _ => trivial
  · exact ⟨trivial, Metadata.readable_toJson inRange (by decide), trivial⟩
  · exact readableMembers_member? fun l _ => readable_ofNames l (by decide)

end

/-! ### What comes back -/

/-- What is written of a value in range is read back, in whatever words, and whatever is read is in
range. -/
structure Faithful {α : Type} (inRange : α → Prop) (layout : Layout) (toJson : α → Json)
    (ofJson : Reads α) : Prop where
  /-- The text is read as the document of which it is the text. -/
  text : ∀ a, inRange a → parse (compact (toJson a)) = .ok (toJson a)
  value : ∀ a, inRange a → ofJson (toJson a) = .ok a
  reworded : ∀ a, inRange a → ∀ j, layout.Rewords (toJson a) j → ofJson j = .ok a
  again : ∀ j a, ofJson j = .ok a → inRange a ∧ ofJson (toJson a) = .ok a

/-- Objects are faithful to their documents if their words can be changed. -/
theorem Faithful.of_rewords {α : Type} {inRange : α → Prop} {layout : Layout} {toJson : α → Json}
    {ofJson : Reads α} (readable : ∀ {a}, inRange a → (toJson a).Readable 128)
    (reworded : ∀ {a j}, inRange a → layout.Rewords (toJson a) j → ofJson j = .ok a)
    (accepted : ∀ {j a}, ofJson j = .ok a → inRange a) :
    Faithful inRange layout toJson ofJson where
  text _ h := parse_compact (readable h)
  value _ h := reworded h (.refl _)
  reworded _ h _ words := reworded h words
  again _ _ h := ⟨accepted h, reworded (accepted h) (.refl _)⟩

/-- **Objects are read back as they were written**, and as anyone else may write them: with the
members in another order, unknown members added, and those left out that hold the default. Whatever
is accepted can be written and read again. -/
theorem faithful_objects :
    Faithful (fun _ => True) FeatureSet.layout FeatureSet.toJson FeatureSet.ofJson ∧
    Faithful (fun p => p.metadata.InRange) ProvisionerCapability.layout
      ProvisionerCapability.toJson ProvisionerCapability.ofJson ∧
    Faithful (fun c => c.metadata.InRange) ClassCapability.layout
      ClassCapability.toJson ClassCapability.ofJson ∧
    Faithful (fun c => c.metadata.InRange) SnapshotClass.layout
      SnapshotClass.toJson SnapshotClass.ofJson := by
  refine ⟨?_, ?_, ?_, ?_⟩
  · exact .of_rewords (fun _ => FeatureSet.readable_toJson _ (by decide))
      (fun _ => FeatureSet.ofJson_of_rewords) fun _ => trivial
  · exact .of_rewords
      (fun h => readable_capabilityToJson h (ProvisionerSpec.readable_toJson _ (by decide)))
      ProvisionerCapability.ofJson_of_rewords ProvisionerCapability.inRange_of_ofJson
  · exact .of_rewords
      (fun h => readable_capabilityToJson h (ClassSpec.readable_toJson _ (by decide)))
      ClassCapability.ofJson_of_rewords ClassCapability.inRange_of_ofJson
  · exact .of_rewords SnapshotClass.readable_toJson SnapshotClass.ofJson_of_rewords
      SnapshotClass.inRange_of_ofJson

/-- A capability with fields that are present but empty. -/
def bareCapability : ProvisionerCapability where
  metadata := {
    name := some "disk", generateName := some "", labels := some ∅, annotations := some ∅,
    generation := some 3, finalizers := some [] }
  spec := { plugin := ⟨"disk", "1"⟩ }

/-- The same as someone else writes it, with a status and without features. -/
def bareWords : Json := .object [
  ("status", .object []),
  ("spec", .object [
    ("pluginInfo", .object [("version", .string "1"), ("name", .string "disk")])]),
  ("metadata", .object [
    ("name", .string "disk"), ("labels", .object []), ("generation", .int 3),
    ("generateName", .string ""), ("finalizers", .array []), ("annotations", .object [])]),
  ("kind", .string "ProvisionerCapability"),
  ("apiVersion", .string Kind.provisionerCapability.apiVersion)]

/-- A capability of which most is left out is read from a document with unknown members. -/
theorem faithful_objects_bare :
    bareCapability.metadata.InRange ∧
    ProvisionerCapability.layout.Rewords bareCapability.toJson bareWords ∧
    ProvisionerCapability.ofJson bareWords = .ok bareCapability := by
  have inRange : bareCapability.metadata.InRange := by
    rintro g hg
    obtain rfl : 3 = g := Option.some.inj hg
    decide
  have plugin : PluginInfo.layout.Rewords bareCapability.spec.plugin.toJson (.object [
      ("version", .string "1"), ("name", .string "disk")]) :=
    .of_perm (List.reverse_perm [_, _])
  have spec : ProvisionerSpec.layout.Rewords bareCapability.spec.toJson (.object [
      ("pluginInfo", .object [("version", .string "1"), ("name", .string "disk")])]) :=
    .intro (.leaveOut rfl (.keep plugin .nil)) (List.forall_mem_nil _) (.refl _)
  have metadata : Metadata.layout.Rewords bareCapability.metadata.toJson
      (.object bareCapability.metadata.members.reverse) :=
    .of_perm (List.reverse_perm _)
  have unknown : ∀ a ∈ [("status", Json.object [])], a.1 ∉ ProvisionerCapability.layout.known := by
    decide
  have words : ProvisionerCapability.layout.Rewords bareCapability.toJson bareWords :=
    .intro (.keep rfl (.keep rfl (.keep metadata (.keep spec .nil)))) unknown
      (List.reverse_perm [_, _, _, _, _])
  exact ⟨inRange, words, faithful_objects.2.1.reworded _ inRange _ words⟩

end StorageFeatures
