/-!
# White space

`isBlank` is the `White_Space` property of Unicode and `trim` removes such characters at both
ends of a text. Every blank of ASCII is one (`isBlank_of_isWhitespace`); a zero width space and
a byte order mark are not.
-/

namespace StorageFeatures.Text

/-- Whether a character has the Unicode property `White_Space`. -/
def isBlank (c : Char) : Bool :=
  let n := c.toNat
  (9 ≤ n && n ≤ 13) || n == 0x20 || n == 0x85 || n == 0xA0 || n == 0x1680 ||
    (0x2000 ≤ n && n ≤ 0x200A) || n == 0x2028 || n == 0x2029 || n == 0x202F || n == 0x205F ||
    n == 0x3000

/-- The characters without the blanks that stand first. -/
def trimLeft (cs : List Char) : List Char := cs.dropWhile isBlank

/-- The characters without the blanks at either end. -/
def trimChars (cs : List Char) : List Char :=
  (trimLeft (trimLeft cs).reverse).reverse

/-- The text without the blanks at either end. -/
def trim (s : String) : String := String.ofList (trimChars s.toList)

/-- The white space of the grammar is blank. -/
theorem isBlank_of_isWhitespace {c : Char} (h : c.isWhitespace = true) : isBlank c = true := by
  simp only [Char.isWhitespace, Bool.or_eq_true, decide_eq_true_eq] at h
  rcases h with ((rfl | rfl) | rfl) | rfl <;> decide

/-- Trimming leaves nothing of blanks alone, and of nothing else. -/
theorem trimLeft_eq_nil_iff {cs : List Char} :
    trimLeft cs = [] ↔ ∀ c ∈ cs, isBlank c = true := by
  induction cs with
  | nil => simp [trimLeft]
  | cons c cs ih =>
    rw [trimLeft] at ih
    by_cases h : isBlank c <;> simp [trimLeft, h, ih]

/-- What is left does not begin with a blank. -/
theorem head_trimLeft {c : Char} {cs r : List Char} (h : trimLeft cs = c :: r) :
    isBlank c = false := by
  induction cs with
  | nil => simp [trimLeft] at h
  | cons d cs ih =>
    by_cases hd : isBlank d
    · exact ih (by simpa [trimLeft, List.dropWhile_cons, hd] using h)
    · simp only [trimLeft, List.dropWhile_cons, hd] at h
      simp_all

/-- Text that does not begin with a blank stays as it is. -/
@[simp] theorem trimLeft_cons_of_not {c : Char} {cs : List Char} (h : isBlank c = false) :
    trimLeft (c :: cs) = c :: cs := by
  simp [trimLeft, h]

end StorageFeatures.Text
