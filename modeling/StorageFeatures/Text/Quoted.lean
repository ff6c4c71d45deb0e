import StorageFeatures.Text.Unseen

/-!
# Quoted text

`quote` puts a text between double quotes. A quote and a backslash take a backslash, tabs, line
ends and the null character are named, and a character without a visible form is spelled by its
number; everything else stands for itself.
-/

namespace StorageFeatures.Text

/-- The hexadecimal digits of a number, lower case, without leading zeros. -/
def hexDigits (n : Nat) : List Char := Nat.toDigits 16 n

/-- How a character stands inside a quoted text. -/
def escape (c : Char) : List Char :=
  if c = '"' then ['\\', '"']
  else if c = '\\' then ['\\', '\\']
  else if c = '\n' then ['\\', 'n']
  else if c = '\r' then ['\\', 'r']
  else if c = '\t' then ['\\', 't']
  else if c.toNat = 0 then ['\\', '0']
  else if c.toNat < 0x20 || Unseen.contains c then
    ['\\', 'u', '\x7b'] ++ hexDigits c.toNat ++ ['\x7d']
  else [c]

/-- The text between double quotes. -/
def quote (s : String) : String :=
  String.ofList ('"' :: (s.toList.flatMap escape ++ ['"']))

/-- A visible character that is neither a quote nor a backslash stands for itself. -/
theorem escape_of_visible {c : Char} (h₁ : c ≠ '"') (h₂ : c ≠ '\\') (h₃ : 0x20 ≤ c.toNat)
    (h₄ : c.toNat < 0x7F) : escape c = [c] := by
  have hn : c ≠ '\n' := by rintro rfl; revert h₃; decide
  have hr : c ≠ '\r' := by rintro rfl; revert h₃; decide
  have ht : c ≠ '\t' := by rintro rfl; revert h₃; decide
  have hu : Unseen.contains c = false := by simp [Unseen.contains]; omega
  have h₀ : c.toNat ≠ 0 := by omega
  have h₅ : ¬ c.toNat < 0x20 := by omega
  simp [escape, h₁, h₂, hn, hr, ht, hu, h₀, h₅]

end StorageFeatures.Text
