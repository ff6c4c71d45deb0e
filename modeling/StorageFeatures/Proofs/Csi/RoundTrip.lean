import StorageFeatures.Csi.Codec
import StorageFeatures.Proofs.Wire.Fields

/-!
# Messages of a plugin are read back

Every message of a storage plugin is read back from its bytes: the answers to the four calls, their
entries, and the numbers inside of the entries. Each encoding is a list of fields, which reading
gets back by `Wire.fields_write`; what is left to show is that reading these fields one after the
other builds the value from its defaults.

Numbers need no bound, since a number of 32 bits is extended to 64 and cut off again
(`Csi.ofWireNumber_wireNumber`), and neither do entries, since an entry takes 22 bytes at most. The
texts of an identity do: a length has 64 bits. So an identity is read back if its encoding fits into
memory, and that is the case if it was itself read from bytes that did
(`Csi.PluginIdentity.within_of_decode`). The main result is `Csi.roundTrips`.
-/

namespace StorageFeatures

/-- The bytes of an array, which are also what a loop over it collects. -/
theorem toList_eq_data (b : ByteArray) : b.toList = b.data.toList := by
  have collected : ∀ (i : Nat) (r : List UInt8),
      ByteArray.toList.loop b i r = r.reverse ++ b.data.toList.drop i := by
    intro i r
    fun_induction ByteArray.toList.loop b i r with
    | case1 i r hlt ih =>
      have hi : i < b.data.toList.length := hlt
      have hget : b.get! i = b.data.toList[i] := getElem!_pos b.data i hlt
      rw [ih, List.drop_eq_getElem_cons hi, hget]
      simp
    | case2 i r hge =>
      have hle : b.data.toList.length ≤ i := Nat.le_of_not_lt hge
      rw [List.drop_eq_nil_of_le hle, List.append_nil]
  rw [ByteArray.toList, collected]
  rfl

namespace Csi

open Wire

/-! ### Texts and numbers -/

/-- The bytes of a text encode it. -/
theorem textOf?_bytesOf (s : String) : textOf? (bytesOf s) = some s := by
  have hbytes : (⟨(bytesOf s).toArray⟩ : ByteArray) = s.toByteArray := by
    rw [bytesOf, toList_eq_data]
    rfl
  unfold textOf? String.fromUTF8?
  rw [hbytes, dif_pos s.isValidUTF8]
  rfl

theorem bytesOf_empty : bytesOf "" = [] := by
  rw [bytesOf, toList_eq_data]
  rfl

/-- Only the bytes of a text encode it. -/
theorem bytesOf_of_textOf? {b : List UInt8} {s : String} (h : textOf? b = some s) :
    bytesOf s = b := by
  unfold textOf? String.fromUTF8? at h
  split at h
  · obtain rfl := Option.some.inj h
    rw [bytesOf, toList_eq_data]
    rfl
  · cases h

/-- A negative number is sent as its complement of 64 bits. -/
theorem wireNumber_of_neg {n : Int32} (h : n.toInt < 0) :
    (wireNumber n : Int) = UInt64.size + n.toInt := by
  have hlow := n.le_toInt
  have hneg : n < 0 := Int32.lt_iff_toInt_lt.mpr h
  rw [wireNumber, if_pos hneg, Int.toNat_of_nonneg]
  simp only [UInt64.size]
  omega

theorem wireNumber_of_nonneg {n : Int32} (h : 0 ≤ n.toInt) : (wireNumber n : Int) = n.toInt := by
  have hpos : ¬ n < 0 := fun hneg => Int.not_lt.mpr h (Int32.lt_iff_toInt_lt.mp hneg)
  rw [wireNumber, if_neg hpos, Int.toNat_of_nonneg h]

theorem wireNumber_lt (n : Int32) : wireNumber n < UInt64.size := by
  have hlow := n.le_toInt
  have hhigh := n.toInt_lt
  rcases Int.lt_or_le n.toInt 0 with h | h
  · have hwire := wireNumber_of_neg h
    omega
  · have hwire := wireNumber_of_nonneg h
    simp only [UInt64.size]
    omega

/-- A number comes back from its lowest 32 bits, whatever its sign. -/
theorem ofWireNumber_wireNumber (n : Int32) : ofWireNumber (wireNumber n) = n := by
  have hlow := n.le_toInt
  have hhigh := n.toInt_lt
  refine Int32.toInt_inj.mp ?_
  rw [ofWireNumber, Int32.toInt_ofNat', Int.bmod_def]
  rcases Int.lt_or_le n.toInt 0 with h | h
  · rw [wireNumber_of_neg h]
    simp only [Int32.size, UInt64.size]
    omega
  · rw [wireNumber_of_nonneg h]
    simp only [Int32.size]
    omega

/-! ### Entries -/

/-- What is written is read back. -/
def ReadsBack {α : Type} (encode : α → List UInt8) (decode : List UInt8 → Option α) : Prop :=
  ∀ a, decode (encode a) = some a

theorem readFields_append {σ : Type} (step : σ → Nat → Payload → Option σ) (s : σ)
    (l l' : List (Nat × Payload)) :
    readFields step s (l ++ l') = (readFields step s l).bind fun s' => readFields step s' l' := by
  induction l generalizing s with
  | nil => rfl
  | cons f l ih =>
    obtain ⟨number, payload⟩ := f
    simp only [List.cons_append, readFields, Option.bind_eq_bind, ih, Option.bind_assoc]

/-- Fields of one shape are read by a fold. -/
theorem readFields_map {σ α : Type} {step : σ → Nat → Payload → Option σ} {f : α → Nat × Payload}
    {g : σ → α → σ} {l : List α} (h : ∀ s, ∀ a ∈ l, step s (f a).1 (f a).2 = some (g s a)) (s : σ) :
    readFields step s (l.map f) = some (l.foldl g s) := by
  induction l generalizing s with
  | nil => rfl
  | cons a l ih =>
    have hstep := h s a List.mem_cons_self
    have hrest := ih fun s b hb => h s b (List.mem_cons_of_mem a hb)
    simp only [List.map_cons, readFields, hstep, Option.bind_eq_bind, Option.bind_some, hrest,
      List.foldl_cons]

/-- The field of a message that wraps another one. -/
theorem fields_delimitedField {alwaysDelimited : Nat → Bool} {depth number : Nat} {b : List UInt8}
    (hpos : 0 < number) (hlt : number < 16) (hb : b.length < UInt64.size) :
    fields alwaysDelimited depth (delimitedField number b) = some [(number, .bytes b)] := by
  have h := @fields_write alwaysDelimited depth [(number, .bytes b)]
    (by simpa [Writable] using ⟨hpos, by omega, hb⟩)
  rwa [List.flatMap_cons, List.flatMap_nil, List.append_nil] at h

theorem length_encodeNumber_le (n : Int32) : (encodeNumber n).length ≤ 11 := by
  unfold encodeNumber
  split
  · decide
  · exact length_numberField_le (by decide) (wireNumber_lt n)

/-- The last number that is sent is the one that is read. -/
theorem mergeNumber_encodeNumber (depth : Nat) : ReadsBack encodeNumber (mergeNumber depth 0) := by
  intro n
  unfold mergeNumber encodeNumber
  split
  · rename_i hzero
    subst hzero
    rfl
  · have h := @fields_write (fun _ => false) depth [(1, .number (wireNumber n))]
      (by simpa [Writable] using wireNumber_lt n)
    rw [List.flatMap_cons, List.flatMap_nil, List.append_nil, write] at h
    rw [h]
    simp [readFields, ofWireNumber_wireNumber]

/-- A message around a number has one field. -/
theorem fields_wrapped {depth number : Nat} (hpos : 0 < number) (hlt : number < 16) (n : Int32) :
    fields (fun _ => false) depth (delimitedField number (encodeNumber n)) =
      some [(number, .bytes (encodeNumber n))] :=
  fields_delimitedField hpos hlt (Nat.lt_of_le_of_lt (length_encodeNumber_le n) (by decide))

/-- A number inside a message is sent with a length that fits. -/
theorem length_wrapped_lt {number : Nat} (hlt : number < 16) (n : Int32) :
    (delimitedField number (encodeNumber n)).length < UInt64.size := by
  have hinner := length_encodeNumber_le n
  have houter := length_delimitedField_le hlt
    (Nat.lt_of_le_of_lt hinner (show 11 < UInt64.size by decide))
  simp only [UInt64.size]
  omega

/-- An entry that says something is told apart from one that does not, even if its number is the
default and takes no bytes. -/
theorem decodePluginEntryAt_encodePluginEntry (depth : Nat) :
    ReadsBack encodePluginEntry (decodePluginEntryAt depth) := by
  intro entry
  unfold decodePluginEntryAt encodePluginEntry
  cases entry with
  | none => rfl
  | some entry =>
    cases entry with
    | service n | expansion n =>
      have h := mergeNumber_encodeNumber (depth - 1) n
      dsimp only
      rw [fields_wrapped (by decide) (by decide)]
      simp [readFields, h]

theorem length_encodePluginEntry_lt (entry : Option PluginEntry) :
    (encodePluginEntry entry).length < UInt64.size := by
  cases entry with
  | none => decide
  | some entry => cases entry <;> exact length_wrapped_lt (by decide) _

/-- Entries with a number are read back, unknown numbers included. -/
theorem decodeRpcEntryAt_encodeRpcEntry (depth : Nat) :
    ReadsBack encodeRpcEntry (decodeRpcEntryAt depth) := by
  intro entry
  unfold decodeRpcEntryAt encodeRpcEntry
  cases entry with
  | none => rfl
  | some n =>
    have h := mergeNumber_encodeNumber (depth - 1) n
    dsimp only
    rw [fields_wrapped (by decide) (by decide)]
    simp [readFields, h]

theorem length_encodeRpcEntry_lt (entry : Option Int32) :
    (encodeRpcEntry entry).length < UInt64.size := by
  cases entry with
  | none => decide
  | some n => exact length_wrapped_lt (by decide) n

/-- Whole lists of entries are read back if each entry is. -/
theorem decodeEntries_encodeEntries {α : Type} {encode : α → List UInt8}
    {decode : List UInt8 → Option α} (h : ReadsBack encode decode)
    (hlength : ∀ a, (encode a).length < UInt64.size) :
    ReadsBack (encodeEntries encode) (decodeEntries decode) := by
  intro entries
  have hfields : fields (fun _ => false) depthLimit (encodeEntries encode entries) =
      some (entries.map fun e => (1, .bytes (encode e))) := by
    have hwritten := @fields_write (fun _ => false) depthLimit
      (entries.map fun e => (1, .bytes (encode e)))
      (by simpa [Writable] using fun a _ => hlength a)
    rwa [List.flatMap_map] at hwritten
  unfold decodeEntries
  rw [hfields]
  simp only [Option.bind_eq_bind, Option.bind_some]
  rw [readFields_map (g := fun read e => e :: read) fun read e _ => by simp [h e]]
  simp

/-! ### Identity -/

/-- The bytes of an identity with the entries of its manifest in some order. -/
def encodeIdentityAs (p : PluginIdentity) (entries : List (String × String)) : List UInt8 :=
  textField 1 p.name ++ textField 2 p.vendorVersion ++
    entries.flatMap fun e => delimitedField 3 (encodeManifestEntry e.1 e.2)

/-- The field of a text, unless it is empty. -/
def textFields (number : Nat) (s : String) : List (Nat × Payload) :=
  if s.isEmpty then [] else [(number, .bytes (bytesOf s))]

/-- An empty text is not sent, and others are sent as one field. -/
theorem flatMap_write_textFields (number : Nat) (s : String) :
    (textFields number s).flatMap write = textField number s := by
  unfold textFields textField
  split
  · rfl
  · simp [write]

/-- Each text and each entry of the manifest has a length of 64 bits. -/
structure PluginIdentity.Fits (p : PluginIdentity) : Prop where
  name : (bytesOf p.name).length < UInt64.size
  vendorVersion : (bytesOf p.vendorVersion).length < UInt64.size
  manifest : ∀ e ∈ p.manifest.entries, (bytesOf e.1).length < UInt64.size ∧
    (bytesOf e.2).length < UInt64.size ∧ (encodeManifestEntry e.1 e.2).length < UInt64.size

variable {alwaysDelimited : Nat → Bool}

/-- The field of a text can be written if its number and its length fit. -/
theorem writable_of_mem_textFields {number : Nat} {s : String} {f : Nat × Payload}
    (hpos : 0 < number) (hlt : number < 16) (hs : (bytesOf s).length < UInt64.size)
    (hf : f ∈ textFields number s) : Writable alwaysDelimited f := by
  unfold textFields at hf
  split at hf
  · cases hf
  · obtain rfl := List.mem_singleton.mp hf
    exact ⟨hpos, by omega, hs⟩

/-- A text is read back if the value read so far holds the empty text in its place. -/
theorem readFields_textFields {σ : Type} {step : σ → Nat → Payload → Option σ} {s t : σ}
    {number : Nat} {text : String} (hstep : step s number (.bytes (bytesOf text)) = some t)
    (hempty : text = "" → t = s) : readFields step s (textFields number text) = some t := by
  unfold textFields
  split
  · rename_i h
    rw [hempty (by simpa using h)]
    rfl
  · simp [readFields, hstep]

theorem payloadText?_bytesOf (s : String) : payloadText? (.bytes (bytesOf s)) = some s :=
  textOf?_bytesOf s

/-- An entry of the manifest is read back, key and value. -/
theorem decodeManifestEntry_encodeManifestEntry {k v : String}
    (hk : (bytesOf k).length < UInt64.size) (hv : (bytesOf v).length < UInt64.size) :
    decodeManifestEntry (encodeManifestEntry k v) = some (k, v) := by
  have writable : ∀ f ∈ textFields 1 k ++ textFields 2 v, Writable (fun _ => false) f := by
    intro f hf
    rcases List.mem_append.mp hf with hf | hf
    · exact writable_of_mem_textFields (by decide) (by decide) hk hf
    · exact writable_of_mem_textFields (by decide) (by decide) hv hf
  have hfields := @fields_write _ (depthLimit - 1) _ writable
  rw [List.flatMap_append, flatMap_write_textFields, flatMap_write_textFields] at hfields
  unfold decodeManifestEntry encodeManifestEntry
  rw [hfields]
  simp only [Option.bind_eq_bind, Option.bind_some]
  rw [readFields_append, readFields_textFields (t := (k, "")), Option.bind_some,
    readFields_textFields (t := (k, v))]
  · simp [payloadText?_bytesOf]
  · rintro rfl
    rfl
  · simp [payloadText?_bytesOf]
  · rintro rfl
    rfl

theorem foldl_manifest (p : PluginIdentity) (entries : List (String × String)) :
    entries.foldl (fun q e => { q with manifest := q.manifest.insert e.1 e.2 }) p =
      { p with manifest := entries.foldl (fun m e => m.insert e.1 e.2) p.manifest } := by
  induction entries generalizing p with
  | nil => rfl
  | cons e entries ih => rw [List.foldl_cons, ih, List.foldl_cons]

/-- **An identity is read back**, in whatever order its manifest was written. -/
theorem PluginIdentity.Fits.decode {p : PluginIdentity} (h : p.Fits)
    {entries : List (String × String)} (perm : entries.Perm p.manifest.entries) :
    decodeIdentity (encodeIdentityAs p entries) = some p := by
  have fits : ∀ e ∈ entries, _ := fun e he => h.manifest e (perm.mem_iff.mp he)
  have writable : ∀ f ∈ textFields 1 p.name ++ textFields 2 p.vendorVersion ++
      entries.map fun e => (3, .bytes (encodeManifestEntry e.1 e.2)), Writable (· = 3) f := by
    intro f hf
    rcases List.mem_append.mp hf with hf | hf
    · rcases List.mem_append.mp hf with hf | hf
      · exact writable_of_mem_textFields (by decide) (by decide) h.name hf
      · exact writable_of_mem_textFields (by decide) (by decide) h.vendorVersion hf
    · obtain ⟨e, he, rfl⟩ := List.mem_map.mp hf
      exact ⟨by decide, by decide, (fits e he).2.2⟩
  -- cut into fields, the bytes are those that were written
  have hfields : fields (fun number => number = 3) depthLimit (encodeIdentityAs p entries) =
      some (textFields 1 p.name ++ textFields 2 p.vendorVersion ++
        entries.map fun e => (3, .bytes (encodeManifestEntry e.1 e.2))) := by
    have hwritten := @fields_write _ depthLimit _ writable
    rwa [List.flatMap_append, List.flatMap_append, flatMap_write_textFields,
      flatMap_write_textFields, List.flatMap_map] at hwritten
  unfold decodeIdentity
  rw [hfields]
  simp only [Option.bind_eq_bind, Option.bind_some]
  rw [readFields_append, readFields_append, readFields_textFields (t := { name := p.name }),
    Option.bind_some,
    readFields_textFields (t := { name := p.name, vendorVersion := p.vendorVersion }),
    Option.bind_some,
    readFields_map (g := fun q e => { q with manifest := q.manifest.insert e.1 e.2 })]
  · -- entries with different names make one map in any order
    have hmanifest : NameMap.ofList entries = p.manifest :=
      NameMap.ofList_eq_of_mem_iff fun e => perm.mem_iff
    rw [foldl_manifest]
    show some { p with manifest := NameMap.ofList entries } = some p
    rw [hmanifest]
  · intro q e he
    have h := fits e he
    simp [decodeManifestEntry_encodeManifestEntry h.1 h.2.1]
  · simp [payloadText?_bytesOf]
  · intro h
    rw [h]
  · simp [payloadText?_bytesOf]
  · intro h
    rw [h]

/-! ### Identities that fit into memory -/

/-- No buffer holds as many bytes as this. -/
def memory : Nat := 2 ^ 63

theorem length_le_length_textField (number : Nat) (s : String) :
    (bytesOf s).length ≤ (textField number s).length := by
  unfold textField
  split
  · rename_i h
    have hempty : s = "" := by simpa using h
    simp [hempty, bytesOf_empty]
  · exact length_le_length_delimitedField number _

theorem length_textField_le {number : Nat} {s : String} (h : number < 16)
    (hs : (bytesOf s).length < UInt64.size) :
    (textField number s).length ≤ (bytesOf s).length + 11 := by
  unfold textField
  split
  · exact Nat.zero_le _
  · exact length_delimitedField_le h hs

theorem length_le_length_encodeManifestEntry (k v : String) :
    (bytesOf k).length ≤ (encodeManifestEntry k v).length ∧
      (bytesOf v).length ≤ (encodeManifestEntry k v).length := by
  have hk := length_le_length_textField 1 k
  have hv := length_le_length_textField 2 v
  rw [encodeManifestEntry, List.length_append]
  exact ⟨by omega, by omega⟩

/-- An identity fits if its encoding does. -/
theorem PluginIdentity.fits_of_length {p : PluginIdentity} {entries : List (String × String)}
    (perm : entries.Perm p.manifest.entries) (h : (encodeIdentityAs p entries).length < memory) :
    p.Fits := by
  have hname := length_le_length_textField 1 p.name
  have hversion := length_le_length_textField 2 p.vendorVersion
  rw [encodeIdentityAs, List.length_append, List.length_append] at h
  have hmemory : memory < UInt64.size := by decide
  refine ⟨by omega, by omega, fun e he => ?_⟩
  have hentry : (encodeManifestEntry e.1 e.2).length ≤
      (entries.flatMap fun e => delimitedField 3 (encodeManifestEntry e.1 e.2)).length := by
    obtain ⟨before, after, rfl⟩ := List.append_of_mem (perm.mem_iff.mpr he)
    have hfield := length_le_length_delimitedField 3 (encodeManifestEntry e.1 e.2)
    simp only [List.flatMap_append, List.flatMap_cons, List.length_append]
    omega
  obtain ⟨hk, hv⟩ := length_le_length_encodeManifestEntry e.1 e.2
  exact ⟨by omega, by omega, by omega⟩

/-- What is read from the fields of a message is no longer than they are. -/
theorem readFields_size_le {σ : Type} {step : σ → Nat → Payload → Option σ} (size : σ → Nat)
    (grows : ∀ s number payload t, step s number payload = some t →
      size t ≤ size s + payload.size) {l : List (Nat × Payload)} {s t : σ}
    (h : readFields step s l = some t) : size t ≤ size s + (l.map (·.2.size)).sum := by
  induction l generalizing s with
  | nil =>
    cases h
    exact Nat.le_refl _
  | cons f l ih =>
    obtain ⟨s', hstep, hrest⟩ := Option.bind_eq_some_iff.mp h
    have hfirst := grows _ _ _ _ hstep
    have hrest := ih hrest
    rw [List.map_cons, List.sum_cons]
    omega

theorem length_of_payloadText? {payload : Payload} {s : String} (h : payloadText? payload = some s) :
    (bytesOf s).length ≤ payload.size := by
  cases payload with
  | bytes b => 
    rw [bytesOf_of_textOf? h]
    exact Nat.le_refl _
  | number n | skipped => cases h

/-- Key and value together are no longer than the entry they were read from. -/
theorem length_of_decodeManifestEntry {b : List UInt8} {k v : String}
    (h : decodeManifestEntry b = some (k, v)) :
    (bytesOf k).length + (bytesOf v).length ≤ b.length := by
  obtain ⟨fs, hfields, hread⟩ := Option.bind_eq_some_iff.mp h
  have hsum := sum_size_le hfields
  have hsize := readFields_size_le (fun e => (bytesOf e.1).length + (bytesOf e.2).length) ?_ hread
  · simp only [bytesOf_empty, List.length_nil] at hsize
    omega
  · rintro ⟨k, v⟩ number payload ⟨k', v'⟩ hstep
    dsimp only at hstep ⊢
    split at hstep
    · obtain ⟨text, htext, h⟩ := Option.map_eq_some_iff.mp hstep
      obtain ⟨rfl, rfl⟩ := Prod.mk.inj h
      have hlength := length_of_payloadText? htext
      omega
    · obtain ⟨text, htext, h⟩ := Option.map_eq_some_iff.mp hstep
      obtain ⟨rfl, rfl⟩ := Prod.mk.inj h
      have hlength := length_of_payloadText? htext
      omega
    · obtain ⟨rfl, rfl⟩ := Prod.mk.inj (Option.some.inj hstep)
      omega

/-- No text of an identity is longer than a number of bytes, and no two of one entry are together. -/
structure PluginIdentity.Within (n : Nat) (p : PluginIdentity) : Prop where
  name : (bytesOf p.name).length ≤ n
  vendorVersion : (bytesOf p.vendorVersion).length ≤ n
  manifest : ∀ k v, p.manifest.get? k = some v → (bytesOf k).length + (bytesOf v).length ≤ n

/-- What every field keeps is kept by reading all of them. -/
theorem readFields_preserves {σ : Type} {step : σ → Nat → Payload → Option σ} {P : σ → Prop}
    {l : List (Nat × Payload)} {s t : σ} (h : readFields step s l = some t) (hs : P s)
    (kept : ∀ f ∈ l, ∀ s t, step s f.1 f.2 = some t → P s → P t) : P t := by
  induction l generalizing s with
  | nil =>
    cases h
    exact hs
  | cons f l ih =>
    obtain ⟨s', hstep, hrest⟩ := Option.bind_eq_some_iff.mp h
    exact ih hrest (kept f List.mem_cons_self _ _ hstep hs)
      fun f hf => kept f (List.mem_cons_of_mem _ hf)

/-- What is read is no longer than the message. -/
theorem PluginIdentity.within_of_decode {bytes : List UInt8} {p : PluginIdentity}
    (h : decodeIdentity bytes = some p) : p.Within bytes.length := by
  obtain ⟨fs, hfields, hread⟩ := Option.bind_eq_some_iff.mp h
  have hsum := sum_size_le hfields
  -- a field is part of the bytes, so it is no longer than they are
  have hsize : ∀ f ∈ fs, f.2.size ≤ bytes.length := by
    intro f hf
    obtain ⟨before, after, rfl⟩ := List.append_of_mem hf
    simp only [List.map_append, List.map_cons, List.sum_append, List.sum_cons] at hsum
    omega
  refine readFields_preserves hread ⟨?_, ?_, nofun⟩ ?_
  · rw [bytesOf_empty]
    exact Nat.zero_le _
  · rw [bytesOf_empty]
    exact Nat.zero_le _
  · rintro ⟨number, payload⟩ hf q q' hstep hq
    have hle := hsize _ hf
    dsimp only at hstep hle
    split at hstep
    · obtain ⟨text, htext, rfl⟩ := Option.map_eq_some_iff.mp hstep
      exact { hq with name := Nat.le_trans (length_of_payloadText? htext) hle }
    · obtain ⟨text, htext, rfl⟩ := Option.map_eq_some_iff.mp hstep
      exact { hq with vendorVersion := Nat.le_trans (length_of_payloadText? htext) hle }
    · split at hstep
      · obtain ⟨⟨k, v⟩, hentry, rfl⟩ := Option.map_eq_some_iff.mp hstep
        refine { hq with manifest := fun k' v' hget => ?_ }
        rw [NameMap.get?_insert] at hget
        split at hget
        · rename_i hk
          obtain rfl := Option.some.inj hget
          rw [hk]
          exact Nat.le_trans (length_of_decodeManifestEntry hentry) hle
        · exact hq.manifest k' v' hget
      · cases hstep
    · obtain rfl := Option.some.inj hstep
      exact hq

/-- Texts that came from bytes in memory fit into a message. -/
theorem PluginIdentity.Within.fits {n : Nat} {p : PluginIdentity} (h : p.Within n)
    (hn : n < memory) : p.Fits := by
  have hname := h.name
  have hversion := h.vendorVersion
  have hmemory : memory + 22 < UInt64.size := by decide
  refine ⟨by omega, by omega, fun e he => ?_⟩
  have hsum := h.manifest e.1 e.2 (NameMap.get?_eq_some_iff.mpr he)
  have hk : (bytesOf e.1).length < UInt64.size := by omega
  have hv : (bytesOf e.2).length < UInt64.size := by omega
  have hfield := length_textField_le (show 1 < 16 by decide) hk
  have hfield' := length_textField_le (show 2 < 16 by decide) hv
  refine ⟨hk, hv, ?_⟩
  rw [encodeManifestEntry, List.length_append]
  omega

/-! ### The messages -/

/-- Every value is read back from its bytes, and so is every value that was read from any bytes. -/
structure Lossless {α : Type} (encode : α → List UInt8) (decode : List UInt8 → Option α) :
    Prop where
  value : ∀ a, decode (encode a) = some a
  again : ∀ bytes a, decode bytes = some a → decode (encode a) = some a

/-- What was read from any bytes is a value, so it is read back too. -/
theorem ReadsBack.lossless {α : Type} {encode : α → List UInt8} {decode : List UInt8 → Option α}
    (h : ReadsBack encode decode) : Lossless encode decode :=
  ⟨h, fun _ a _ => h a⟩

/-- What is written of a plugin is read back. -/
structure RoundTrips : Prop where
  /-- The message inside of an entry. -/
  number : Lossless encodeNumber (mergeNumber depthLimit 0)
  pluginEntry : Lossless encodePluginEntry decodePluginEntry
  rpcEntry : Lossless encodeRpcEntry decodeRpcEntry
  pluginEntries : Lossless encodePluginEntries decodePluginEntries
  /-- The answers of the controller side and of the node side. -/
  rpcEntries : Lossless encodeRpcEntries decodeRpcEntries
  /-- The entries of a manifest may be written in any order. -/
  ordered : ∀ p, encodeIdentity p = encodeIdentityAs p p.manifest.entries
  identity : ∀ p entries, entries.Perm p.manifest.entries →
    (encodeIdentityAs p entries).length < memory →
      decodeIdentity (encodeIdentityAs p entries) = some p
  identityAgain : ∀ bytes p entries, bytes.length < memory → decodeIdentity bytes = some p →
    entries.Perm p.manifest.entries → decodeIdentity (encodeIdentityAs p entries) = some p

/-- **Nothing is lost on the wire.** Numbers, entries and whole answers are read back from what is
written for them, and an identity from whatever order its manifest is written in, as long as the
bytes fit into memory. -/
theorem roundTrips : RoundTrips where
  number := (mergeNumber_encodeNumber _).lossless
  pluginEntry := (decodePluginEntryAt_encodePluginEntry _).lossless
  rpcEntry := (decodeRpcEntryAt_encodeRpcEntry _).lossless
  pluginEntries :=
    (decodeEntries_encodeEntries (decodePluginEntryAt_encodePluginEntry _)
      length_encodePluginEntry_lt).lossless
  rpcEntries :=
    (decodeEntries_encodeEntries (decodeRpcEntryAt_encodeRpcEntry _)
      length_encodeRpcEntry_lt).lossless
  ordered _ := rfl
  identity _ _ perm hlength := (PluginIdentity.fits_of_length perm hlength).decode perm
  identityAgain _ _ _ hlength hdecode perm :=
    ((PluginIdentity.within_of_decode hdecode).fits hlength).decode perm

/-- An identity whose manifest has an entry without a name and one without a value. -/
def sampleIdentity : PluginIdentity where
  name := "disk"
  vendorVersion := "1"
  manifest := .ofList [("", "x"), ("commit", "")]

/-- An identity with a manifest is read back. -/
theorem roundTrips_sample : (encodeIdentity sampleIdentity).length < memory ∧
    decodeIdentity (encodeIdentity sampleIdentity) = some sampleIdentity := by
  have fits : (encodeIdentity sampleIdentity).length < memory := by decide +kernel
  rw [roundTrips.ordered] at fits ⊢
  exact ⟨fits, roundTrips.identity _ _ (.refl _) fits⟩

/-- An entry for the service that constrains where volumes are reachable. -/
example : decodePluginEntry [0x0a, 0x02, 0x08, 0x02] =
    some (some (.service accessibilityConstraints)) := by
  decide

end Csi

end StorageFeatures
