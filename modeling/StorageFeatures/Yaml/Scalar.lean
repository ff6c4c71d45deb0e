/-!
# Scalars of YAML

How a text is written as a scalar. A text with line ends is a literal block. A text that would
read as null, a truth value or a number is quoted, and so is one that the syntax of plain scalars
does not allow. Double quotes are for what neither a block nor single quotes can hold.
-/

namespace StorageFeatures.Yaml

/-! ### Texts that read as something else -/

def isNull (s : String) : Bool := ["", "null", "Null", "NULL", "~"].contains s

def isTruthValue (s : String) : Bool :=
  ["true", "True", "TRUE", "false", "False", "FALSE"].contains s

/-- The number that some digits stand for; `none` if there are none or one is no digit. -/
def digits? (base : Nat) : List Char → Option Nat
  | [] => none
  | cs => cs.foldlM (fun n c =>
      let d := if c.isDigit then c.toNat - 48
        else if 'a' ≤ c ∧ c ≤ 'z' then c.toNat - 87
        else if 'A' ≤ c ∧ c ≤ 'Z' then c.toNat - 55
        else base
      if d < base then some (n * base + d) else none) 0

/-- Digits behind a leading zero, with or without a sign. -/
def isZeroPadded (cs : List Char) : Bool :=
  let cs := match cs with
    | '-' :: r | '+' :: r => r
    | _ => cs
  match cs with
  | '0' :: r => !r.isEmpty && r.all Char.isDigit
  | _ => false

/-- The absolute value of an integer without sign, in one of four bases. -/
def magnitude? : List Char → Option Nat
  | '0' :: 'x' :: r => digits? 16 r
  | '0' :: 'o' :: r => digits? 8 r
  | '0' :: 'b' :: r => digits? 2 r
  | cs => digits? 10 cs

/-- Whether a text is an integer of at most 128 bits. -/
def isInteger (cs : List Char) : Bool :=
  match cs with
  | '-' :: r => (magnitude? r).any (· ≤ 1 <<< 127)
  | '+' :: r => (magnitude? r).any (· < 1 <<< 128)
  | _ => (magnitude? cs).any (· < 1 <<< 128)

/-- The exponent of a decimal number, zero where there is none. -/
def exponent? : List Char → Option Int
  | [] => some 0
  | c :: r =>
    if c = 'e' ∨ c = 'E' then
      match r with
      | '-' :: r => (digits? 10 r).map fun n => -(n : Int)
      | '+' :: r => (digits? 10 r).map fun n => (n : Int)
      | r => (digits? 10 r).map fun n => (n : Int)
    else none

/-- The least magnitude that a floating-point number cannot hold. -/
def overflow : Nat := 1 <<< 1024 - 1 <<< 970

/-- Whether `n · 10 ^ e` is within the range of floating-point numbers. -/
def isFinite (n : Nat) (e : Int) : Bool :=
  if n = 0 then true
  else
    let size := (Nat.toDigits 10 n).length + e
    if size < 300 then true
    else if 320 < size then false
    else if e < 0 then n < overflow * Nat.pow 10 (-e).toNat
    else n * Nat.pow 10 e.toNat < overflow

/-- Whether a text without sign is a decimal number in range. -/
def isDecimal (cs : List Char) : Bool :=
  let whole := cs.takeWhile Char.isDigit
  let rest := cs.drop whole.length
  let (fraction, rest) := match rest with
    | '.' :: r => (r.takeWhile Char.isDigit, r.dropWhile Char.isDigit)
    | r => ([], r)
  match digits? 10 (whole ++ fraction), exponent? rest with
  | some n, some e => isFinite n (e - fraction.length)
  | _, _ => false

/-- Whether a text is a floating-point number. -/
def isReal (cs : List Char) : Bool :=
  let infinity := [".inf", ".Inf", ".INF"].map String.toList
  match cs with
  | '-' :: r => infinity.contains r || isDecimal r
  | '+' :: r => infinity.contains r || isDecimal r
  | _ => (infinity ++ [".nan", ".NaN", ".NAN"].map String.toList).contains cs || isDecimal cs

/-- Whether a text would not read as a text, or might not. -/
def readsOtherwise (s : String) : Bool :=
  let cs := s.toList
  isNull s || isTruthValue s || isZeroPadded cs || isInteger cs || isReal cs

/-! ### What the syntax allows -/

/-- Whether a character ends a line. -/
def isBreak (c : Char) : Bool :=
  c = '\n' || c = '\r' || c.toNat = 0x85 || c.toNat = 0x2028 || c.toNat = 0x2029

/-- Whether a character separates words. -/
def isGap (c : Char) : Bool := c = ' ' || c = '\t' || c.toNat = 0 || isBreak c

/-- Whether a character can be written as itself. -/
def isPrintable (c : Char) : Bool :=
  let n := c.toNat
  n = 0x0A || (0x20 ≤ n && n ≤ 0x7E) || (0xA0 ≤ n && n ≠ 0xFEFF && n ≠ 0xFFFE && n ≠ 0xFFFF)

/-- Characters that cannot stand first in a plain scalar. -/
def indicators : List Char := "#,[]\x7b\x7d&*!|>'\"%@`".toList

/-- Whether a plain scalar would end or mean something else at one of its characters; `before` is
the character before. -/
def hasIndicator (before : Option Char) : List Char → Bool
  | [] => false
  | c :: r =>
    let followedByGap := r.head?.all isGap
    let here := match before with
      | none =>
        indicators.contains c || ((c = '?' || c = ':' || c = '-') && followedByGap)
      | some b => (c = ':' && followedByGap) || (c = '#' && isGap b)
    here || hasIndicator (some c) r

/-- Whether some neighbours satisfy a relation. -/
def anyNeighbours (p : Char → Char → Bool) (cs : List Char) : Bool :=
  (cs.zip cs.tail).any fun (a, b) => p a b

/-- What a text contains that restricts how it can be written. -/
structure Analysis where
  /-- A blank or a line end at either end. -/
  loose : Bool
  /-- A blank at the end. -/
  trailingSpace : Bool
  /-- A line end and then a blank. -/
  breakSpace : Bool
  /-- A blank and then a line end. -/
  spaceBreak : Bool
  /-- A character that has to be escaped. -/
  special : Bool
  multiline : Bool
  indicator : Bool

def analyse (cs : List Char) : Analysis :=
  let ends := cs.head?.toList ++ cs.getLast?.toList
  { loose := ends.any fun c => c = ' ' || isBreak c
    trailingSpace := cs.getLast? = some ' '
    breakSpace := anyNeighbours (fun a b => isBreak a && b = ' ') cs
    spaceBreak := anyNeighbours (fun a b => a = ' ' && isBreak b) cs
    special := cs.any fun c => !isPrintable c
    multiline := cs.any isBreak
    indicator := hasIndicator none cs ||
      ["---".toList, "...".toList].contains (cs.take 3) }

namespace Analysis

def allowsPlain (a : Analysis) : Bool :=
  !(a.loose || a.breakSpace || a.spaceBreak || a.special || a.multiline || a.indicator)

def allowsSingleQuotes (a : Analysis) : Bool := !(a.breakSpace || a.spaceBreak || a.special)

def allowsBlock (a : Analysis) : Bool := !(a.trailingSpace || a.spaceBreak || a.special)

end Analysis

/-! ### Styles -/

inductive Style where
  | plain
  | singleQuoted
  | doubleQuoted
  | literal
  deriving DecidableEq, Repr

/-- How a text is written. -/
def styleOf (s : String) : Style :=
  let cs := s.toList
  let a := analyse cs
  if cs.contains '\n' then if a.allowsBlock then .literal else .doubleQuoted
  else if a.allowsPlain && !readsOtherwise s then .plain
  else if a.allowsSingleQuotes then .singleQuoted
  else .doubleQuoted

def spaces (n : Nat) : List Char := List.replicate n ' '

/-- The inside of single quotes: a quote is written twice, and a line begins with its
indentation. -/
def singleQuotedChars (indent : Nat) (afterBreak : Bool) : List Char → List Char
  | [] => if afterBreak then spaces indent else []
  | c :: r =>
    if isBreak c then c :: singleQuotedChars indent true r
    else
      (if afterBreak then spaces indent else []) ++
        (if c = '\'' then ['\'', '\''] else [c]) ++ singleQuotedChars indent false r

/-- The hexadecimal digits of a number in so many places. -/
def hexPlaces : Nat → Nat → List Char
  | 0, _ => []
  | places + 1, n => hexPlaces places (n / 16) ++ [(Nat.digitChar (n % 16)).toUpper]

/-- The letters of the characters that have one. -/
def letters : List (Nat × Char) :=
  [(0x00, '0'), (0x07, 'a'), (0x08, 'b'), (0x09, 't'), (0x0A, 'n'), (0x0B, 'v'), (0x0C, 'f'),
   (0x0D, 'r'), (0x1B, 'e'), (0x22, '"'), (0x5C, '\\'), (0x85, 'N'), (0xA0, '_'), (0x2028, 'L'),
   (0x2029, 'P')]

/-- How a character stands between double quotes. -/
def escapeChar (c : Char) : List Char :=
  if isPrintable c && !isBreak c && c ≠ '"' && c ≠ '\\' then [c]
  else
    let n := c.toNat
    '\\' :: match letters.lookup n with
      | some l => [l]
      | none =>
        if n ≤ 0xFF then 'x' :: hexPlaces 2 n
        else if n ≤ 0xFFFF then 'u' :: hexPlaces 4 n
        else 'U' :: hexPlaces 8 n

/-- The lines of a literal block: each begins with its indentation unless it is empty. -/
def literalChars (indent : Nat) (afterBreak : Bool) : List Char → List Char
  | [] => []
  | c :: r =>
    if isBreak c then c :: literalChars indent true r
    else (if afterBreak then spaces indent else []) ++ c :: literalChars indent false r

/-- What the header of a literal block says about the line ends at its end: all are dropped,
one is kept, or all are kept. -/
def chomping (cs : List Char) : List Char :=
  match cs.reverse with
  | [] => ['-']
  | c :: r =>
    if !isBreak c then ['-'] else if r.head?.all isBreak then ['+'] else []

/-- The header of a literal block; a block that begins with a blank needs its indentation. -/
def literalHeader (cs : List Char) : List Char :=
  let hint := if cs.head?.any fun c => c = ' ' || isBreak c then ['2'] else []
  '|' :: (hint ++ chomping cs)

/-- A text as a scalar whose further lines are indented by `indent`. -/
def scalarText (indent : Nat) (s : String) : String :=
  let cs := s.toList
  match styleOf s with
  | .plain => s
  | .singleQuoted => String.ofList ('\'' :: (singleQuotedChars indent false cs ++ ['\'']))
  | .doubleQuoted => String.ofList ('"' :: (cs.flatMap escapeChar ++ ['"']))
  | .literal => String.ofList (literalHeader cs ++ '\n' :: literalChars indent true cs)

/-- A text that reads as something else is never plain. -/
theorem styleOf_ne_plain {s : String} (h : readsOtherwise s = true) : styleOf s ≠ .plain := by
  simp only [styleOf, h, Bool.not_true, Bool.and_false]
  repeat' split
  all_goals simp_all

end StorageFeatures.Yaml
