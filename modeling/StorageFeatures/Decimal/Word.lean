/-!
# Decimal words

Reading runs of decimal digits as numbers of 64 bits. `Word.parse` also takes one leading `+` and
says why a text is no number.
-/

namespace StorageFeatures.Word

/-- Why a text is no number of 64 bits. -/
inductive Malformed where
  | empty
  | badDigit
  | tooLarge
  deriving DecidableEq, Repr

def Malformed.message : Malformed → String
  | empty => "cannot parse integer from empty string"
  | badDigit => "invalid digit found in string"
  | tooLarge => "number too large to fit in target type"

/-- The least number that is too large. -/
def bound : Nat := UInt64.size

/-- Reads decimal digits onto a number read so far. -/
def digits (n : Nat) : List Char → Except Malformed Nat
  | [] => .ok n
  | c :: r =>
    if c.isDigit then
      let m := n * 10 + (c.toNat - 48)
      if m < bound then digits m r else .error .tooLarge
    else .error .badDigit

/-- Reads a number. -/
def ofChars : List Char → Except Malformed Nat
  | [] => .error .empty
  | ['+'] => .error .badDigit
  | '+' :: r => digits 0 r
  | cs => digits 0 cs

def parse (s : String) : Except Malformed Nat := ofChars s.toList

/-- Only numbers of 64 bits are read. -/
theorem lt_bound_of_digits {n m : Nat} {cs : List Char} (hn : n < bound)
    (h : digits n cs = .ok m) : m < bound := by
  induction cs generalizing n with
  | nil => cases h; exact hn
  | cons c r ih =>
    unfold digits at h
    split at h
    · dsimp only at h
      split at h
      · exact ih ‹_› h
      · simp at h
    · simp at h

end StorageFeatures.Word
