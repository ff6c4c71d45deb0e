import StorageFeatures.Decimal.Word

/-!
# Numerals

A numeral is a run of decimal digits that stands for a number of 64 bits. Digits are read one after
the other and refused as soon as the number passes its bound; since numbers only grow when digits
are read (`le_ofDigitChars`), exactly the numerals are read (`numeral_iff`).
-/

namespace StorageFeatures.Word

/-- A run of decimal digits that stands for a number of 64 bits. Leading zeros do not matter. -/
structure Numeral (cs : List Char) (n : Nat) : Prop where
  ne_nil : cs ≠ []
  digits : ∀ c ∈ cs, c.isDigit = true
  value : Nat.ofDigitChars 10 cs 0 = n
  lt : n < UInt64.size

/-- Numbers only grow when digits are read. -/
theorem le_ofDigitChars (cs : List Char) (n : Nat) : n ≤ Nat.ofDigitChars 10 cs n := by
  induction cs generalizing n with
  | nil => exact Nat.le_refl n
  | cons c r ih =>
    rw [Nat.ofDigitChars_cons]
    have htail := ih (10 * n + (c.toNat - '0'.toNat))
    omega

/-- Digits are read as long as the number stays in its bound. -/
theorem digits_eq_ok_iff {n m : Nat} {cs : List Char} (hn : n < bound) : digits n cs = .ok m ↔
    (∀ c ∈ cs, c.isDigit = true) ∧ Nat.ofDigitChars 10 cs n = m ∧ m < bound := by
  induction cs generalizing n with
  | nil =>
    simp only [digits, Nat.ofDigitChars_nil, List.not_mem_nil, false_implies, implies_true,
      true_and, Except.ok.injEq]
    exact ⟨fun h => ⟨h, h ▸ hn⟩, And.left⟩
  | cons c r ih =>
    have hvalue : n * 10 + (c.toNat - 48) = 10 * n + (c.toNat - '0'.toNat) := by
      rw [Nat.mul_comm]
      rfl
    rw [List.forall_mem_cons, Nat.ofDigitChars_cons, digits, hvalue]
    by_cases hdigit : c.isDigit = true
    · rw [if_pos hdigit]
      dsimp only
      split
      · rename_i hlt
        rw [ih hlt]
        simp [hdigit]
      · rename_i hlarge
        refine iff_of_false nofun ?_
        rintro ⟨-, rfl, hsmall⟩
        exact hlarge (Nat.lt_of_le_of_lt (le_ofDigitChars r _) hsmall)
    · rw [if_neg hdigit]
      exact iff_of_false nofun fun h => hdigit h.1.1

/-- A numeral is what the reader of digits accepts, the empty text apart. -/
theorem numeral_iff {n : Nat} {cs : List Char} :
    Numeral cs n ↔ cs ≠ [] ∧ digits 0 cs = .ok n := by
  rw [digits_eq_ok_iff (by decide : 0 < bound)]
  exact ⟨fun h => ⟨h.ne_nil, h.digits, h.value, h.lt⟩, fun h => ⟨h.1, h.2.1, h.2.2.1, h.2.2.2⟩⟩

/-- The digits of a number say that number. -/
theorem numeral_toDigits {n : Nat} (h : n < UInt64.size) : Numeral (Nat.toDigits 10 n) n where
  ne_nil := Nat.toDigits_ne_nil
  digits _ hc := Nat.isDigit_of_mem_toDigits (by decide) (by decide) hc
  value := Nat.ofDigitChars_ten_toDigits
  lt := h

/-- Nothing but digits stands in a numeral. -/
theorem Numeral.notMem {cs : List Char} {n : Nat} (h : Numeral cs n) {c : Char}
    (hc : c.isDigit = false) : c ∉ cs := by
  intro hmem
  rw [h.digits c hmem] at hc
  cases hc

end StorageFeatures.Word
