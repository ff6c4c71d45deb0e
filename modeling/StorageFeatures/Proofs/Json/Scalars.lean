import StorageFeatures.Json.Reader
import StorageFeatures.Json.Writer
import StorageFeatures.Proofs.Decimal.Numerals

/-!
# Strings and numbers in JSON text

What the writer makes of a string or of an integer is read back as what it was. The reader works
on bytes: a character of a string is either escaped, and then its escape is read as the character
(`escaped_escapeChar`), or none of its bytes is special, and they are taken as they are
(`stringBody_plain`). Digits are read up to the first byte that is none, so a number needs to know
what follows it (`Ends`).
-/

namespace StorageFeatures.Json

/-! ### Bytes -/

/-- The bytes of a text. -/
def bytes (s : String) : List UInt8 := s.toUTF8.data.toList

theorem bytes_append (s t : String) : bytes (s ++ t) = bytes s ++ bytes t := by
  simp [bytes, String.toUTF8, String.toByteArray_append, ByteArray.data_append]

theorem bytes_ofList (cs : List Char) :
    bytes (String.ofList cs) = cs.flatMap String.utf8EncodeChar := by
  simp only [bytes, String.toUTF8, String.toByteArray_ofList, List.utf8Encode,
    List.data_toByteArray]

/-- A byte that stands for itself in a string. -/
def IsPlain (b : UInt8) : Prop := ¬ b < 32 ∧ b ≠ 34 ∧ b ≠ 92

theorem utf8EncodeChar_of_lt {c : Char} (h : c.toNat < 128) :
    String.utf8EncodeChar c = [UInt8.ofNat c.toNat] := by
  have hle : c.val.toNat ≤ 127 := Nat.le_of_lt_succ h
  simp only [String.utf8EncodeChar, if_pos hle]
  rfl

/-- Characters outside of ASCII have no byte in it. -/
theorem le_of_mem_utf8EncodeChar {c : Char} (h : 128 ≤ c.toNat) :
    ∀ b ∈ String.utf8EncodeChar c, 128 ≤ b := by
  have hlt : ¬ c.val.toNat ≤ 127 := by
    have : 128 ≤ c.val.toNat := h
    omega
  intro b hb
  simp only [String.utf8EncodeChar, if_neg hlt] at hb
  rw [UInt8.le_iff_toNat_le]
  split at hb
  · simp at hb
    rcases hb with rfl | rfl <;> simp <;> omega
  · split at hb
    · simp at hb
      rcases hb with rfl | rfl | rfl <;> simp <;> omega
    · simp at hb
      rcases hb with rfl | rfl | rfl | rfl <;> simp <;> omega

/-- The bytes of other characters than the quote, the backslash and control characters are plain. -/
theorem isPlain_of_mem {c : Char} (h : 32 ≤ c.toNat) (quote : c ≠ '"') (backslash : c ≠ '\\') :
    ∀ b ∈ String.utf8EncodeChar c, IsPlain b := by
  intro b hb
  by_cases hascii : c.toNat < 128
  · rw [utf8EncodeChar_of_lt hascii, List.mem_singleton] at hb
    have hnat : b.toNat = c.toNat := by
      rw [hb, UInt8.toNat_ofNat', Nat.mod_eq_of_lt (by omega)]
    refine ⟨?_, ?_, ?_⟩
    · rw [UInt8.lt_iff_toNat_lt, hnat]
      exact Nat.not_lt.mpr h
    · rintro rfl
      exact quote (Char.ext (UInt32.toNat_inj.mp hnat.symm))
    · rintro rfl
      exact backslash (Char.ext (UInt32.toNat_inj.mp hnat.symm))
  · have hle := le_of_mem_utf8EncodeChar (Nat.le_of_not_lt hascii) b hb
    rw [UInt8.le_iff_toNat_le] at hle
    refine ⟨?_, ?_, ?_⟩
    · rw [UInt8.lt_iff_toNat_lt]
      exact Nat.not_lt.mpr (Nat.le_trans (by decide) hle)
    · rintro rfl
      exact absurd hle (by decide)
    · rintro rfl
      exact absurd hle (by decide)

namespace Cursor

theorem rest_step {c : Cursor} {b : UInt8} {r : List UInt8} (h : c.rest = b :: r) :
    c.step.rest = r := by
  simp only [step, h]
  split <;> rfl

theorem steps_add (m n : Nat) (c : Cursor) : c.steps (m + n) = (c.steps m).steps n := by
  induction m generalizing c with
  | zero => rw [Nat.zero_add]; rfl
  | succ m ih => rw [Nat.succ_add]; exact ih c.step

theorem rest_steps (l : List UInt8) {c : Cursor} {r : List UInt8} (h : c.rest = l ++ r) :
    (c.steps l.length).rest = r := by
  induction l generalizing c with
  | nil => exact h
  | cons b l ih => exact ih (rest_step h)

end Cursor

namespace Reading

/-! ### Strings -/

/-- Plain bytes are taken over as they stand, one per unit of fuel. -/
theorem stringBody_plain (l : List UInt8) (plain : ∀ b ∈ l, IsPlain b) {fuel : Nat}
    {taken r : List UInt8} {c : Cursor} (h : c.rest = l ++ r) :
    stringBody (fuel + l.length) taken c =
      stringBody fuel (l.reverse ++ taken) (c.steps l.length) := by
  induction l generalizing taken c with
  | nil => rfl
  | cons b l ih =>
    obtain ⟨⟨hctl, hquote, hback⟩, hl⟩ := List.forall_mem_cons.mp plain
    have hstep : stringBody (fuel + l.length) (b :: taken) c.step = _ := ih hl (Cursor.rest_step h)
    rw [List.length_cons, ← Nat.add_assoc, stringBody, h]
    simp only [List.cons_append, hctl, hquote, hback, if_false]
    rw [hstep, List.reverse_cons, List.append_assoc]
    rfl

/-- A digit of an escape is read back. -/
theorem hexValue_digitChar : ∀ d < 16, String.utf8EncodeChar (Nat.digitChar d) =
    [UInt8.ofNat (Nat.digitChar d).toNat] ∧
      hexValue (UInt8.ofNat (Nat.digitChar d).toNat) = some d := by
  decide

/-- A control character that is spelled by its number is read as itself. -/
theorem escaped_control {ch : Char} (h : ch.toNat < 0x20) :
    ∃ l, (['\\', 'u', '0', '0'] ++ controlDigits ch.toNat).flatMap String.utf8EncodeChar = 92 :: l ∧
      ∀ {c : Cursor} {r : List UInt8}, c.rest = l ++ r → escaped c = .ok (ch, c.steps l.length) := by
  obtain ⟨hbytes₁, hvalue₁⟩ := hexValue_digitChar (ch.toNat / 16) (by omega)
  obtain ⟨hbytes₂, hvalue₂⟩ := hexValue_digitChar (ch.toNat % 16) (by omega)
  refine ⟨[117, 48, 48, UInt8.ofNat (Nat.digitChar (ch.toNat / 16)).toNat,
    UInt8.ofNat (Nat.digitChar (ch.toNat % 16)).toNat], ?_, ?_⟩
  · simp only [controlDigits, List.flatMap_append, List.flatMap_cons, List.flatMap_nil, hbytes₁,
      hbytes₂]
    rfl
  · intro c r hrest
    have hstep : c.step.rest = 48 :: 48 :: UInt8.ofNat (Nat.digitChar (ch.toNat / 16)).toNat ::
        UInt8.ofNat (Nat.digitChar (ch.toNat % 16)).toNat :: r := Cursor.rest_step hrest
    have hn : ((0 * 16 + 0) * 16 + ch.toNat / 16) * 16 + ch.toNat % 16 = ch.toNat := by omega
    have hzero : hexValue 48 = some 0 := rfl
    have hquad : hexQuad c.step = .ok (ch.toNat, c.step.steps 4) := by
      simp only [hexQuad, hstep, hzero, hvalue₁, hvalue₂, hn]
    have hlow : ¬ (0xDC00 ≤ ch.toNat ∧ ch.toNat ≤ 0xDFFF) := by omega
    have hhigh : ¬ (0xD800 ≤ ch.toNat ∧ ch.toNat ≤ 0xDBFF) := by omega
    have hspelled : spelled c.step = .ok (ch, c.step.steps 4) := by
      simp only [spelled, hquad, bind, Except.bind, if_neg hlow, if_neg hhigh, Char.ofNat_toNat]
    simp only [escaped, hrest, List.cons_append]
    exact hspelled

theorem ascii_eq {ch ch' : Char} (h : ch.toNat = ch'.toNat) : ch = ch' :=
  Char.ext (UInt32.toNat_inj.mp h)

/-- What an escape is read as. -/
theorem escaped_escapeChar {ch : Char} (special : escapeChar ch ≠ [ch]) :
    ∃ l, (escapeChar ch).flatMap String.utf8EncodeChar = 92 :: l ∧
      ∀ {c : Cursor} {r : List UInt8}, c.rest = l ++ r → escaped c = .ok (ch, c.steps l.length) := by
  unfold escapeChar at special ⊢
  split
  · rename_i hch
    exact ⟨[34], rfl, fun h => by simp [escaped, h, hch]; rfl⟩
  split
  · rename_i hch
    exact ⟨[92], rfl, fun h => by simp [escaped, h, hch]; rfl⟩
  split
  · rename_i hch
    exact ⟨[110], rfl, fun h => by simp [escaped, h, hch]; rfl⟩
  split
  · rename_i hch
    exact ⟨[114], rfl, fun h => by simp [escaped, h, hch]; rfl⟩
  split
  · rename_i hch
    exact ⟨[116], rfl, fun h => by simp [escaped, h, hch]; rfl⟩
  split
  · rename_i hch
    exact ⟨[98], rfl, fun h => by simp [escaped, h]; exact ⟨(ascii_eq hch).symm, rfl⟩⟩
  split
  · rename_i hch
    exact ⟨[102], rfl, fun h => by simp [escaped, h]; exact ⟨(ascii_eq hch).symm, rfl⟩⟩
  split
  · rename_i hch
    exact escaped_control hch
  · simp [*] at special

/-- Only a character that stands for itself is written as it is. -/
theorem isPlain_of_escapeChar {ch : Char} (h : escapeChar ch = [ch]) :
    ∀ b ∈ String.utf8EncodeChar ch, IsPlain b := by
  refine isPlain_of_mem ?_ ?_ ?_
  · refine Nat.le_of_not_lt fun hlt => ?_
    simp only [escapeChar, if_pos hlt] at h
    repeat' split at h
    all_goals cases h
  · rintro rfl
    simp [escapeChar] at h
  · rintro rfl
    simp [escapeChar] at h

/-- The bytes of some characters as they stand inside a string. -/
def bodyBytes (cs : List Char) : List UInt8 :=
  (cs.flatMap escapeChar).flatMap String.utf8EncodeChar

theorem bodyBytes_cons (ch : Char) (cs : List Char) :
    bodyBytes (ch :: cs) = (escapeChar ch).flatMap String.utf8EncodeChar ++ bodyBytes cs := by
  simp [bodyBytes]

/-- The body of a string is read back up to the quote that ends it. The induction is over the
characters: one that stands for itself is taken over byte by byte, and the escape of any other is
read back at once. -/
theorem stringBody_body (cs : List Char) {fuel : Nat} {taken r : List UInt8} {c : Cursor}
    (h : c.rest = bodyBytes cs ++ 34 :: r) (enough : (bodyBytes cs).length < fuel) :
    stringBody fuel taken c =
      .ok ((String.fromUTF8? ⟨(taken.reverse ++ cs.flatMap String.utf8EncodeChar).toArray⟩).getD "",
        c.steps ((bodyBytes cs).length + 1)) := by
  induction cs generalizing fuel taken c with
  | nil =>
    obtain ⟨fuel, rfl⟩ := Nat.exists_eq_add_one_of_ne_zero (Nat.ne_of_gt enough)
    have hrest : c.rest = 34 :: r := h
    simp only [stringBody, hrest, if_true, List.flatMap_nil, List.append_nil]
    rfl
  | cons ch cs ih =>
    rw [bodyBytes_cons] at h enough ⊢
    by_cases hplain : escapeChar ch = [ch]
    · -- the character stands for itself
      have hbytes : (escapeChar ch).flatMap String.utf8EncodeChar = String.utf8EncodeChar ch := by
        simp [hplain]
      rw [hbytes] at h enough ⊢
      rw [List.append_assoc] at h
      rw [List.length_append] at enough
      obtain ⟨fuel, rfl⟩ : ∃ fuel', fuel = fuel' + (String.utf8EncodeChar ch).length :=
        ⟨_, (Nat.sub_add_cancel (by omega)).symm⟩
      rw [stringBody_plain _ (isPlain_of_escapeChar hplain) h,
        ih (Cursor.rest_steps _ h) (by omega), ← Cursor.steps_add, List.length_append]
      simp [Nat.add_assoc]
    · obtain ⟨l, hbytes, hescaped⟩ := escaped_escapeChar hplain
      rw [hbytes] at h enough ⊢
      rw [List.cons_append, List.cons_append, List.append_assoc] at h
      rw [List.cons_append, List.length_cons, List.length_append] at enough ⊢
      obtain ⟨fuel, rfl⟩ := Nat.exists_eq_add_one_of_ne_zero (Nat.ne_of_gt (Nat.zero_lt_of_lt enough))
      have hread := hescaped (Cursor.rest_step h)
      have hrest : (c.step.steps l.length).rest = bodyBytes cs ++ 34 :: r :=
        Cursor.rest_steps l (Cursor.rest_step h)
      have hnot : ¬ (92 : UInt8) = 34 := by decide
      have hsteps : c.steps (l.length + (bodyBytes cs).length + 1 + 1) =
          (c.step.steps l.length).steps ((bodyBytes cs).length + 1) := by
        rw [← Cursor.steps_add, Nat.add_assoc l.length]
        rfl
      rw [stringBody, h]
      simp only [if_neg hnot, if_true, hread, bind, Except.bind]
      rw [ih hrest (by omega), hsteps]
      simp

/-- The bytes of a text are valid, and say that text. -/
theorem fromUTF8?_flatMap (s : String) :
    String.fromUTF8? ⟨(s.toList.flatMap String.utf8EncodeChar).toArray⟩ = some s := by
  have hbytes : s.toByteArray = ⟨(s.toList.flatMap String.utf8EncodeChar).toArray⟩ := by
    have h := bytes_ofList s.toList
    rw [String.ofList_toList] at h
    rw [← h]
    rfl
  rw [← hbytes]
  unfold String.fromUTF8?
  rw [dif_pos s.isValidUTF8]
  rfl

/-- **A string that was written is read back.** -/
theorem stringText_literal (s : String) {r : List UInt8} {c : Cursor}
    (h : c.rest = bodyBytes s.toList ++ 34 :: r) :
    stringText c = .ok (s, c.steps ((bodyBytes s.toList).length + 1)) := by
  have enough : (bodyBytes s.toList).length < c.rest.length + 1 := by
    rw [h, List.length_append]
    omega
  rw [stringText, stringBody_body s.toList h enough]
  simp [fromUTF8?_flatMap]

theorem bytes_stringLiteral (s : String) :
    bytes (stringLiteral s) = 34 :: (bodyBytes s.toList ++ [34]) := by
  rw [stringLiteral, bytes_ofList, List.flatMap_cons, List.flatMap_append]
  rfl

/-! ### Numbers -/

/-- What may follow a value that stands inside of another one. -/
def Ends (r : List UInt8) : Prop := ∀ b ∈ r.head?, b = 44 ∨ b = 93 ∨ b = 125

theorem digit_byte {d : Char} (h : d.isDigit = true) :
    ∃ b, String.utf8EncodeChar d = [b] ∧ isDigit b = true ∧ b.toNat = d.toNat := by
  have hd : 48 ≤ d.toNat ∧ d.toNat ≤ 57 := by
    simpa [Char.isDigit, UInt32.le_iff_toNat_le] using h
  have hnat : (UInt8.ofNat d.toNat).toNat = d.toNat := by
    rw [UInt8.toNat_ofNat', Nat.mod_eq_of_lt (by omega)]
  refine ⟨_, utf8EncodeChar_of_lt (by omega), ?_, hnat⟩
  simp [isDigit, UInt8.le_iff_toNat_le, hnat, hd]

/-- Digits end where a value ends. -/
theorem not_isDigit_of_ends {r : List UInt8} (h : Ends r) : ∀ b ∈ r.head?, isDigit b = false := by
  intro b hb
  rcases h b hb with rfl | rfl | rfl <;> rfl

/-- Digits are taken up to the first byte that is none. -/
theorem significand_digits (ds : List Char) (digits : ∀ d ∈ ds, d.isDigit = true) {m taken : Nat}
    {r : List UInt8} {c : Cursor} (h : c.rest = ds.flatMap String.utf8EncodeChar ++ r)
    (ends : Ends r) (small : Nat.ofDigitChars 10 ds m ≤ wordMax) :
    ∃ taken', significand c.rest m taken c =
      (Nat.ofDigitChars 10 ds m, taken', false, c.steps ds.length) := by
  induction ds generalizing m taken c with
  | nil =>
    have hrest : c.rest = r := h
    rw [hrest]
    cases r with
    | nil => exact ⟨taken, rfl⟩
    | cons b r =>
      have hb := not_isDigit_of_ends ends b rfl
      exact ⟨taken, by simp [significand, hb, Nat.ofDigitChars]; rfl⟩
  | cons d ds ih =>
    obtain ⟨hd, hds⟩ := List.forall_mem_cons.mp digits
    obtain ⟨b, hbytes, hdigit, hnat⟩ := digit_byte hd
    rw [List.flatMap_cons, hbytes, List.append_assoc] at h
    have hrest : c.rest = b :: (ds.flatMap String.utf8EncodeChar ++ r) := h
    have hstep := Cursor.rest_step hrest
    have hm : m * 10 + (b.toNat - 48) = 10 * m + (d.toNat - '0'.toNat) := by
      rw [hnat, Nat.mul_comm]
      rfl
    rw [Nat.ofDigitChars_cons] at small ⊢
    -- the number read so far is at most the whole one, so it does not overflow
    have hle : ¬ wordMax < 10 * m + (d.toNat - '0'.toNat) :=
      Nat.not_lt.mpr (Nat.le_trans (Word.le_ofDigitChars ds _) small)
    obtain ⟨taken', hread⟩ : ∃ taken', significand c.step.rest _ (taken + 1) c.step = _ :=
      ih hds hstep small
    refine ⟨taken', ?_⟩
    rw [hstep] at hread
    rw [hrest, significand]
    simp only [hdigit, if_true, hm, if_neg hle]
    exact hread

/-- A number other than zero does not begin with zero. -/
theorem toDigits_eq_cons {n : Nat} (h : 0 < n) :
    ∃ d ds, Nat.toDigits 10 n = d :: ds ∧ d ≠ '0' := by
  induction n using Nat.strongRecOn with
  | ind n ih =>
    rw [Nat.toDigits_eq_if (by decide)]
    split
    · rename_i hlt
      have hne : ∀ n < 10, 0 < n → Nat.digitChar n ≠ '0' := by decide
      exact ⟨_, _, rfl, hne n hlt h⟩
    · rename_i hge
      obtain ⟨d, ds, hds, hd⟩ := ih (n / 10) (by omega) (by omega)
      exact ⟨d, ds ++ [_], by rw [hds]; rfl, hd⟩

/-- A natural number is written by its digits. -/
theorem bytes_toString (n : Nat) :
    bytes (toString n) = (Nat.toDigits 10 n).flatMap String.utf8EncodeChar := by
  rw [Nat.toString_eq_repr, Nat.repr_eq_ofList_toDigits, bytes_ofList]

theorem length_flatMap_digits (ds : List Char) (digits : ∀ d ∈ ds, d.isDigit = true) :
    (ds.flatMap String.utf8EncodeChar).length = ds.length := by
  induction ds with
  | nil => rfl
  | cons d ds ih =>
    obtain ⟨hd, hds⟩ := List.forall_mem_cons.mp digits
    obtain ⟨b, hbytes, -, -⟩ := digit_byte hd
    rw [List.flatMap_cons, hbytes, List.length_append, ih hds]
    simp [Nat.add_comm]

/-- The digits of a number are read up to what follows them. -/
theorem number_toString {positive : Bool} {n : Nat} (small : n ≤ wordMax) {r : List UInt8}
    {c : Cursor} (h : c.rest = bytes (toString n) ++ r) (ends : Ends r) :
    number positive c = afterInteger positive n (c.steps (bytes (toString n)).length) := by
  have digits : ∀ d ∈ Nat.toDigits 10 n, d.isDigit = true :=
    fun d hd => Nat.isDigit_of_mem_toDigits (by decide) (by decide) hd
  rw [bytes_toString] at h ⊢
  rw [length_flatMap_digits _ digits]
  rcases Nat.eq_zero_or_pos n with rfl | hpos
  · -- a zero stands alone
    have hrest : c.rest = 48 :: r := h
    have hpeek : isDigit c.step.peek = false := by
      rw [Cursor.peek, Cursor.rest_step hrest]
      cases r with
      | nil => rfl
      | cons b r => exact not_isDigit_of_ends ends b rfl
    simp only [number, hrest, if_true, hpeek, Bool.false_eq_true, if_false]
    rfl
  · obtain ⟨d, ds, hds, hd⟩ := toDigits_eq_cons hpos
    have hofDigits : Nat.ofDigitChars 10 (Nat.toDigits 10 n) 0 = n :=
      Nat.ofDigitChars_toDigits (by decide) (by decide)
    obtain ⟨taken, hread⟩ : ∃ taken, significand c.rest 0 0 c = _ :=
      significand_digits _ digits h ends (by rw [hofDigits]; exact small)
    obtain ⟨b, hbytes, hdigit, hnat⟩ := digit_byte (digits d (by simp [hds]))
    have hrest : c.rest = b :: (ds.flatMap String.utf8EncodeChar ++ r) := by
      rw [h, hds, List.flatMap_cons, hbytes]
      rfl
    have hb : ¬ b = 48 := by
      rintro rfl
      exact hd (ascii_eq hnat.symm)
    rw [hrest, hofDigits] at hread
    simp only [number, hrest, if_neg hb, hdigit, if_true, hread]

/-- Neither a fraction nor an exponent follows where a value ends. -/
theorem peek_of_ends {c : Cursor} (ends : Ends c.rest) :
    ¬ c.peek = 46 ∧ ¬ (c.peek = 101 ∨ c.peek = 69) := by
  cases hrest : c.rest with
  | nil => simp [Cursor.peek, hrest]
  | cons b r =>
    rw [hrest] at ends
    rcases ends b rfl with rfl | rfl | rfl <;> simp [Cursor.peek, hrest]

/-- An integer that is read whole. -/
theorem afterInteger_of_ends {n : Nat} {c : Cursor} (ends : Ends c.rest) :
    afterInteger true n c = .ok (.int n, c) ∧
      (n ≠ 0 → n ≤ 1 <<< 63 → afterInteger false n c = .ok (.int (-(n : Int)), c)) := by
  obtain ⟨hpoint, hexp⟩ := peek_of_ends ends
  refine ⟨?_, fun hne hle => ?_⟩
  · simp only [afterInteger, if_neg hpoint, if_neg hexp, if_true]
  · have hfits : ¬ (n = 0 ∨ 1 <<< 63 < n) := not_or.mpr ⟨hne, Nat.not_lt.mpr hle⟩
    simp only [afterInteger, if_neg hpoint, if_neg hexp, Bool.false_eq_true, if_false, if_neg hfits]

end Reading

end StorageFeatures.Json
