import StorageFeatures.Proofs.Object.Rewording

/-!
# Names and documents

The names that an API server takes are those of `isValidName`, lower-case labels with dots between
them.

A server keeps the documents that it is sent and puts its own identity and version into their
metadata. `Json.Stamped` relates what was sent to what is kept, by look-ups alone, so a server is
free to write members in another order or to add members that nobody asks for. Reading such a
document gives the object that was sent with that identity and version
(`ProvisionerCapability.ofJson_of_stamped`, `ClassCapability.ofJson_of_stamped`).
-/

namespace StorageFeatures

open Json

/-! ### Names -/

/-- Whether a label may begin and end with a character. -/
def isLabelEnd (c : Char) : Bool := c.isLower || c.isDigit

theorem range_of_isLabelEnd {c : Char} (h : isLabelEnd c = true) :
    (97 ≤ c.toNat ∧ c.toNat ≤ 122) ∨ (48 ≤ c.toNat ∧ c.toNat ≤ 57) := by
  obtain h | h := Bool.or_eq_true_iff.mp h
  · obtain ⟨low, high⟩ := Bool.and_eq_true_iff.mp h
    exact .inl ⟨of_decide_eq_true low, of_decide_eq_true high⟩
  · obtain ⟨low, high⟩ := Bool.and_eq_true_iff.mp h
    exact .inr ⟨of_decide_eq_true low, of_decide_eq_true high⟩

/-- Whether some characters are a label: letters and digits, with hyphens between them. -/
def isLabel (cs : List Char) : Bool :=
  cs.all (fun c => isLabelEnd c || c == '-') && cs.head?.any isLabelEnd &&
    cs.getLast?.any isLabelEnd

/-- Whether a server takes a name for an object: labels with dots between them, of at most 253
characters together. -/
def isValidName (n : String) : Bool :=
  n.length ≤ 253 && (n.toList.splitOn '.').all isLabel

/-- A valid name has at most 253 characters. -/
theorem length_of_isValidName {n : String} (h : isValidName n = true) : n.length ≤ 253 :=
  of_decide_eq_true (Bool.and_eq_true_iff.mp h).1

/-- Between the pieces there is nothing but separators. -/
theorem eq_or_exists_of_mem_intercalate {a x : α} {ls : List (List α)}
    (h : a ∈ [x].intercalate ls) : a = x ∨ ∃ l ∈ ls, a ∈ l := by
  induction ls with
  | nil => cases h
  | cons l ls ih =>
    cases ls with
    | nil => exact .inr ⟨l, List.mem_singleton_self l, by simpa using h⟩
    | cons l' ls =>
      rw [List.intercalate_cons_cons, List.append_assoc, List.mem_append, List.mem_append,
        List.mem_singleton] at h
      obtain h | h | h := h
      · exact .inr ⟨l, List.mem_cons_self, h⟩
      · exact .inl h
      · obtain h | ⟨m, hm, h⟩ := ih h
        · exact .inl h
        · exact .inr ⟨m, List.mem_cons_of_mem l hm, h⟩

/-- A valid name holds lower-case letters, digits, hyphens and dots only. -/
theorem mem_of_isValidName {n : String} (h : isValidName n = true) {c : Char}
    (hc : c ∈ n.toList) : isLabelEnd c = true ∨ c = '-' ∨ c = '.' := by
  have hjoin : ['.'].intercalate (n.toList.splitOn '.') = n.toList := List.intercalate_splitOn '.'
  rw [← hjoin] at hc
  obtain hdot | ⟨label, hlabel, hc⟩ := eq_or_exists_of_mem_intercalate hc
  · exact .inr (.inr hdot)
  · have hall := List.all_eq_true.mp (Bool.and_eq_true_iff.mp h).2 label hlabel
    simp only [isLabel, Bool.and_eq_true, List.all_eq_true, Bool.or_eq_true, beq_iff_eq] at hall
    exact (hall.1.1 c hc).imp_right .inl

namespace Json

/-! ### Stamped documents -/

/-- A document as it was sent, and as a server keeps it: no member is repeated, the metadata
bears an identity, if there is one, and a version, and everything else is as it was. -/
inductive Stamped (uid : Option String) (version : String) : Json → Json → Prop where
  | intro {sent stored before after : List (String × Json)}
      (once : (stored.map (·.1)).Nodup)
      (rest : ∀ k, k ≠ "metadata" → lookup k stored = lookup k sent)
      (sentMetadata : lookup "metadata" sent = some (.object before))
      (storedMetadata : lookup "metadata" stored = some (.object after))
      (kept : ∀ k, k ≠ "uid" → k ≠ "resourceVersion" → lookup k after = lookup k before)
      (storedUid : lookup "uid" after = uid.map .string)
      (storedVersion : lookup "resourceVersion" after = some (.string version)) :
      Stamped uid version (.object sent) (.object stored)

end Json

namespace Metadata

/-- Metadata of an object with a name of its own; its generation fits 64 bits. -/
structure Proper (name : String) (m : Metadata) : Prop where
  name : m.name = some name
  generation : ∀ g ∈ m.generation, Int64.minValue.toInt ≤ g ∧ g ≤ Int64.maxValue.toInt

/-- The metadata with the identity and the version that a server gives. -/
def stamped (m : Metadata) (uid : Option String) (version : String) : Metadata :=
  { m with uid, resourceVersion := some version }

/-- Proper metadata displays its name. -/
theorem Proper.displayName {m : Metadata} {n : String} (h : m.Proper n) : m.displayName = n :=
  displayName_of_name h.name

/-- The stamp of the server leaves metadata proper. -/
theorem Proper.stamped {m : Metadata} {n : String} (h : m.Proper n) (uid : Option String)
    (version : String) : (m.stamped uid version).Proper n :=
  ⟨h.name, h.generation⟩

/-- Metadata reads as it was written, with the identity and the version that were put in. -/
theorem ofJson_of_lookup {m : Metadata} {n : String} (h : m.Proper n) {uid : Option String}
    {version : String} {ms : List (String × Json)}
    (kept : ∀ k, k ≠ "uid" → k ≠ "resourceVersion" → lookup k ms = lookup k m.members)
    (huid : lookup "uid" ms = uid.map .string)
    (hversion : lookup "resourceVersion" ms = some (.string version)) :
    Metadata.ofJson (.object ms) = .ok (m.stamped uid version) := by
  refine ofJson_of_worded (m := m.stamped uid version) h.generation fun k _ => ?_
  have hlookup : lookup k ms = lookup k (m.stamped uid version).members := by
    by_cases hu : k = "uid"
    · subst hu
      simp [huid, Metadata.stamped, members, lookup_append]
    · by_cases hv : k = "resourceVersion"
      · subst hv
        simp [hversion, Metadata.stamped, members, lookup_append]
      · rw [kept k hu hv]
        simp [Metadata.stamped, members, lookup_append, hu, hv]
  rw [hlookup]
  exact .refl k _

end Metadata

/-! ### Objects that come back -/

/-- An object of a capability kind reads as it was written, with the identity and the version
that the server gave. -/
theorem readCapability_of_stamped {kind : Kind} {m : Metadata} {n : String} (proper : m.Proper n)
    {spec : Json} {readSpec : Reads σ} {s : σ} (hspec : readSpec spec = .ok s)
    {uid : Option String} {version : String} {stored : Json}
    (h : Stamped uid version (capabilityToJson kind m spec) stored) :
    readCapability kind readSpec stored = .ok (m.stamped uid version, s) := by
  generalize hsent : capabilityToJson kind m spec = sent at h
  obtain ⟨once, rest, sentMetadata, storedMetadata, kept, huid, hversion⟩ := h
  cases hsent
  cases sentMetadata
  have hmetadata := field_of_nodup once storedMetadata
    (Metadata.ofJson_of_lookup proper kept huid hversion)
  have hspec' := field_of_nodup once (rest "spec" (by decide)) hspec
  simp only [readCapability, hmetadata, hspec']
  rfl

/-- A provisioner capability is read back as it was sent, with the stamp of the server. -/
theorem ProvisionerCapability.ofJson_of_stamped {p : ProvisionerCapability} {n : String}
    (proper : p.metadata.Proper n) {uid : Option String} {version : String} {stored : Json}
    (h : Stamped uid version p.toJson stored) :
    ProvisionerCapability.ofJson stored =
      .ok { p with metadata := p.metadata.stamped uid version } := by
  rw [ofJson, readCapability_of_stamped proper (ProvisionerSpec.ofJson_toJson p.spec) h]
  rfl

theorem ClassCapability.ofJson_of_stamped {c : ClassCapability} {n : String}
    (proper : c.metadata.Proper n) {uid : Option String} {version : String} {stored : Json}
    (h : Stamped uid version c.toJson stored) :
    ClassCapability.ofJson stored = .ok { c with metadata := c.metadata.stamped uid version } := by
  rw [ofJson, readCapability_of_stamped proper (ClassSpec.ofJson_toJson c.spec) h]
  rfl

end StorageFeatures
