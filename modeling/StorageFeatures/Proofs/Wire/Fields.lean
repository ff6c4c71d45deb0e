import Mathlib.Algebra.Ring.Nat
import StorageFeatures.Wire.Field

/-!
# Fields are read as they were written

A message that was written field by field is cut into these fields again (`Wire.fields_write`),
however deep messages and groups may still nest. All that is needed is that each field is
`Writable`: a key can hold its number, and the number or the length that follows has 64 bits.

Cutting a message takes its bytes apart, so the payloads of its fields are together no longer than
the message (`Wire.sum_size_le`). This bounds what can be read from a message that was not written
by this library.
-/

namespace StorageFeatures

namespace Varint

/-- Every number takes a byte at least. -/
theorem encode_ne_nil (n : Nat) : encode n ≠ [] := by
  rw [encode]
  split <;> simp

/-- A number takes one byte for every seven bits. -/
theorem length_encode_le (limit n : Nat) (h : n < 128 ^ (limit + 1)) :
    (encode n).length ≤ limit + 1 := by
  induction limit generalizing n with
  | zero =>
    rw [encode, if_pos (by omega)]
    exact Nat.le_refl 1
  | succ limit ih =>
    rw [encode]
    split
    · simp
    · have hrest := ih (n / 128) (by rw [Nat.pow_succ] at h; omega)
      simp only [List.length_cons]
      omega

/-- A number of 64 bits takes ten bytes at most. -/
theorem length_encode_le_ten {n : Nat} (h : n < UInt64.size) : (encode n).length ≤ 10 :=
  length_encode_le 9 n (Nat.lt_of_lt_of_le h (by decide))

end Varint

namespace Wire

/-! ### Writing fields -/

/-- The bytes of a field; nothing is written for a payload that was passed over. -/
def write : Nat × Payload → List UInt8
  | (number, .number n) => numberField number n
  | (number, .bytes b) => delimitedField number b
  | (_, .skipped) => []

/-- A key can hold the number of the field, and what follows has 64 bits. -/
def Writable (alwaysDelimited : Nat → Bool) : Nat × Payload → Prop
  | (number, .number n) => 0 < number ∧ number < 536870912 ∧ alwaysDelimited number = false ∧
      n < UInt64.size
  | (number, .bytes b) => 0 < number ∧ number < 536870912 ∧ b.length < UInt64.size
  | (_, .skipped) => False

variable {alwaysDelimited : Nat → Bool} {depth : Nat}

theorem write_ne_nil {f : Nat × Payload} (h : Writable alwaysDelimited f) : write f ≠ [] := by
  obtain ⟨number, payload⟩ := f
  cases payload with
  | number n => simp [write, numberField, key, Varint.encode_ne_nil]
  | bytes b => simp [write, delimitedField, key, Varint.encode_ne_nil]
  | skipped => exact h.elim

/-- The first field of a message is read as it was written. -/
theorem take_write {number : Nat} {payload : Payload}
    (h : Writable alwaysDelimited (number, payload)) (rest : List UInt8) :
    ∃ form r, takeKey (write (number, payload) ++ rest) = some (number, form, r) ∧
      takePayload depth number (if alwaysDelimited number then .delimited else form) r =
        some (payload, rest) := by
  cases payload with
  | number n =>
    obtain ⟨hpos, hlt, hform, hn⟩ := h
    refine ⟨.varint, Varint.encode n ++ rest, ?_, ?_⟩
    · rw [write, numberField, List.append_assoc]
      exact takeKey_key .varint hpos hlt _
    · simp [hform, takePayload, Varint.decode_encode hn]
  | bytes b =>
    obtain ⟨hpos, hlt, hlength⟩ := h
    refine ⟨.delimited, Varint.encode b.length ++ (b ++ rest), ?_, ?_⟩
    · rw [write, delimitedField, List.append_assoc, List.append_assoc]
      exact takeKey_key .delimited hpos hlt _
    · rw [ite_self, takePayload, takeDelimited_append hlength]
      rfl
  | skipped => exact h.elim

/-- A message is cut into the fields it was written from. -/
theorem cut_write {l : List (Nat × Payload)} (h : ∀ f ∈ l, Writable alwaysDelimited f)
    {fuel : Nat} (enough : l.length ≤ fuel) :
    cut alwaysDelimited depth fuel (l.flatMap write) = some l := by
  induction l generalizing fuel with
  | nil => cases fuel <;> rfl
  | cons f l ih =>
    obtain ⟨hf, hl⟩ := List.forall_mem_cons.mp h
    cases fuel with
    | zero => simp at enough
    | succ fuel =>
      obtain ⟨form, r, hkey, hpayload⟩ :=
        @take_write _ depth _ _ hf (l.flatMap write)
      obtain ⟨b, bs, hbytes⟩ := List.exists_cons_of_ne_nil (l := (f :: l).flatMap write)
        (by simp [write_ne_nil hf])
      have hrest := ih hl (Nat.le_of_succ_le_succ enough)
      rw [hbytes, cut, ← hbytes, List.flatMap_cons, hkey]
      · simp [hpayload, hrest]
      · simp

/-- **A message is cut into the fields of which it was written.** -/
theorem fields_write {l : List (Nat × Payload)} (h : ∀ f ∈ l, Writable alwaysDelimited f) :
    fields alwaysDelimited depth (l.flatMap write) = some l := by
  refine cut_write h ?_
  induction l with
  | nil => exact Nat.le_refl 0
  | cons f l ih =>
    obtain ⟨hf, hl⟩ := List.forall_mem_cons.mp h
    have hpos := List.length_pos_iff.mpr (write_ne_nil hf)
    have hrest := ih hl
    rw [List.flatMap_cons, List.length_append, List.length_cons]
    omega

/-! ### Lengths -/

/-- The key of a field with a small number is a single byte. -/
theorem length_key_le {number : Nat} (h : number < 16) (form : Form) :
    (key number form).length ≤ 1 := by
  have hcode : form.code < 8 := by cases form <;> decide
  exact Varint.length_encode_le 0 _ (by omega)

/-- A field with a number takes a byte for its key and ten for the number at most. -/
theorem length_numberField_le {number n : Nat} (h : number < 16) (hn : n < UInt64.size) :
    (numberField number n).length ≤ 11 := by
  have hkey := length_key_le h .varint
  have hnumber := Varint.length_encode_le_ten hn
  rw [numberField, List.length_append]
  omega

/-- A field with bytes takes a byte for its key and ten for the length at most, beside the bytes. -/
theorem length_delimitedField_le {number : Nat} {b : List UInt8} (h : number < 16)
    (hb : b.length < UInt64.size) : (delimitedField number b).length ≤ b.length + 11 := by
  have hkey := length_key_le h .delimited
  have hnumber := Varint.length_encode_le_ten hb
  rw [delimitedField, List.length_append, List.length_append]
  omega

theorem length_le_length_delimitedField (number : Nat) (b : List UInt8) :
    b.length ≤ (delimitedField number b).length := by
  rw [delimitedField, List.length_append]
  exact Nat.le_add_left _ _

/-! ### Cutting takes bytes apart -/

/-- The bytes that a payload holds. -/
def Payload.size : Payload → Nat
  | .bytes b => b.length
  | .number _ | .skipped => 0

section

variable {bytes rest : List UInt8} {number : Nat} {form : Form} {payload : Payload}

theorem length_of_takeKey (h : takeKey bytes = some (number, form, rest)) :
    rest.length ≤ bytes.length := by
  unfold takeKey at h
  obtain ⟨⟨k, r⟩, hdecode, h⟩ := Option.bind_eq_some_iff.mp h
  have hlt := Varint.length_of_take hdecode
  dsimp only at h
  split at h
  · cases h
  · obtain ⟨form', -, h⟩ := Option.bind_eq_some_iff.mp h
    split at h
    · cases h
    · simp only [Option.some.injEq, Prod.mk.injEq] at h
      obtain ⟨-, -, rfl⟩ := h
      exact Nat.le_of_lt hlt

theorem length_of_takeDelimited {b : List UInt8} (h : takeDelimited bytes = some (b, rest)) :
    b.length + rest.length ≤ bytes.length := by
  unfold takeDelimited at h
  obtain ⟨⟨n, r⟩, hdecode, h⟩ := Option.bind_eq_some_iff.mp h
  have hlt := Varint.length_of_take hdecode
  dsimp only at h
  split at h
  · cases h
  · simp only [Option.some.injEq, Prod.mk.injEq] at h
    obtain ⟨rfl, rfl⟩ := h
    rw [List.length_take, List.length_drop]
    omega

/-- What is passed over is dropped. -/
theorem length_of_skip (fuel : Nat) :
    (∀ depth number form bytes rest, skip fuel depth number form bytes = some rest →
      rest.length ≤ bytes.length) ∧
    ∀ depth number bytes rest, skipGroup fuel depth number bytes = some rest →
      rest.length ≤ bytes.length := by
  have dropped : ∀ {n : Nat} {bytes rest : List UInt8}, dropExactly n bytes = some rest →
      rest.length ≤ bytes.length := by
    intro n bytes rest h
    unfold dropExactly at h
    split at h
    · cases h
    · obtain rfl := Option.some.inj h
      simp
  -- skipping a field and skipping a group call each other, so both are bounded at once
  induction fuel with
  | zero => exact ⟨fun _ _ _ _ _ h => (by cases h), fun _ _ _ _ h => (by cases h)⟩
  | succ fuel ih =>
    obtain ⟨skipped, skippedGroup⟩ := ih
    refine ⟨fun depth number form bytes rest h => ?_, fun depth number bytes rest h => ?_⟩
    · unfold skip at h
      split at h
      · cases h
      · cases form with
        | varint =>
          obtain ⟨⟨n, r⟩, hdecode, rfl⟩ := Option.map_eq_some_iff.mp h
          exact Nat.le_of_lt (Varint.length_of_take hdecode)
        | fixed64 | fixed32 => exact dropped h
        | delimited =>
          obtain ⟨⟨b, r⟩, htake, rfl⟩ := Option.map_eq_some_iff.mp h
          exact Nat.le_trans (Nat.le_add_left _ _) (length_of_takeDelimited htake)
        | groupStart => exact skippedGroup _ _ _ _ h
        | groupEnd => cases h
    · unfold skipGroup at h
      obtain ⟨⟨inner, form, r⟩, hkey, h⟩ := Option.bind_eq_some_iff.mp h
      have hle := length_of_takeKey hkey
      dsimp only at h
      split at h
      · split at h
        · obtain rfl := Option.some.inj h
          exact hle
        · cases h
      · obtain ⟨r', hskip, h⟩ := Option.bind_eq_some_iff.mp h
        exact Nat.le_trans (skippedGroup _ _ _ _ h) (Nat.le_trans (skipped _ _ _ _ _ hskip) hle)

/-- A payload and what is left after it are no more than there was. -/
theorem length_of_takePayload (h : takePayload depth number form bytes = some (payload, rest)) :
    payload.size + rest.length ≤ bytes.length := by
  have skipped : (skip (2 * bytes.length + 2) depth number form bytes).map
      (fun r => (Payload.skipped, r)) = some (payload, rest) →
        payload.size + rest.length ≤ bytes.length := by
    intro h
    obtain ⟨r, hskip, h⟩ := Option.map_eq_some_iff.mp h
    obtain ⟨rfl, rfl⟩ := Prod.mk.inj h
    simpa [Payload.size] using (length_of_skip _).1 _ _ _ _ _ hskip
  cases form with
  | varint =>
    obtain ⟨⟨n, r⟩, hdecode, h⟩ := Option.map_eq_some_iff.mp h
    obtain ⟨rfl, rfl⟩ := Prod.mk.inj h
    have hlt := Varint.length_of_take hdecode
    simp only [Payload.size]
    omega
  | delimited =>
    obtain ⟨⟨b, r⟩, htake, h⟩ := Option.map_eq_some_iff.mp h
    obtain ⟨rfl, rfl⟩ := Prod.mk.inj h
    exact length_of_takeDelimited htake
  | fixed64 | groupStart | groupEnd | fixed32 => exact skipped h

/-- **The payloads of a message are together no longer than the message.** -/
theorem sum_size_le {fuel : Nat} {l : List (Nat × Payload)}
    (h : cut alwaysDelimited depth fuel bytes = some l) :
    (l.map (·.2.size)).sum ≤ bytes.length := by
  induction fuel generalizing bytes l with
  | zero =>
    cases bytes with
    | nil =>
      cases h
      exact Nat.le_refl 0
    | cons b r => cases h
  | succ fuel ih =>
    cases bytes with
    | nil =>
      cases h
      exact Nat.le_refl 0
    | cons b r =>
      obtain ⟨⟨number, form, r'⟩, hkey, h⟩ := Option.bind_eq_some_iff.mp h
      obtain ⟨⟨payload, r''⟩, hpayload, h⟩ := Option.bind_eq_some_iff.mp h
      obtain ⟨l', hcut, h⟩ := Option.bind_eq_some_iff.mp h
      obtain rfl := Option.some.inj h
      have hkey := length_of_takeKey hkey
      have hpayload := length_of_takePayload hpayload
      have hrest := ih hcut
      -- what the key, the payload and the other fields take adds up to what there was
      simp only [List.map_cons, List.sum_cons]
      omega

end

end Wire

end StorageFeatures
