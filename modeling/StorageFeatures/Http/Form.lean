/-!
# Pairs in a query

`Form.encode` writes a text so that it can stand in a query: letters, digits and four marks stay,
a blank becomes `+`, and every other byte is written as `%` with two hexadecimal digits.
-/

namespace StorageFeatures.Http.Form

/-- The characters that stand for themselves. -/
def isPlain (c : Char) : Bool := c.isAlphanum || c == '*' || c == '-' || c == '.' || c == '_'

/-- A hexadecimal digit in upper case. -/
def hexDigit (n : Nat) : Char := (Nat.digitChar n).toUpper

def encodeByte (b : UInt8) : List Char :=
  ['%', hexDigit (b.toNat / 16), hexDigit (b.toNat % 16)]

def encodeChar (c : Char) : List Char :=
  if isPlain c then [c]
  else if c = ' ' then ['+']
  else (String.singleton c).toUTF8.toList.flatMap encodeByte

def encode (s : String) : String := String.ofList (s.toList.flatMap encodeChar)

/-- Plain text is written as it is. -/
theorem encode_of_plain {s : String} (h : s.toList.all isPlain = true) : encode s = s := by
  have key : ∀ l : List Char, l.all isPlain = true → l.flatMap encodeChar = l := by
    intro l hl
    induction l with
    | nil => rfl
    | cons c r ih =>
      rw [List.all_cons, Bool.and_eq_true] at hl
      rw [List.flatMap_cons, ih hl.2, encodeChar, if_pos hl.1]
      rfl
  rw [encode, key _ h, String.ofList_toList]

/-- A pair is written after an ampersand, the first one too. -/
def pairs (l : List (String × String)) : String :=
  String.join (l.map fun (k, v) => "&" ++ encode k ++ "=" ++ encode v)

end StorageFeatures.Http.Form
