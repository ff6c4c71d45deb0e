import StorageFeatures.Json.Basic

/-!
# Reading JSON text

`Json.parse` reads one document and says, where it cannot, what is wrong and in which line and
column, counted in bytes. Integers beyond 64 bits and numbers with a fraction or an exponent
become floating-point numbers; a significand longer than 64 bits is cut, as its last digits do
not fit a word. At most 127 arrays and objects nest.
-/

namespace StorageFeatures.Json

/-- What is wrong with a text. -/
inductive Malformed where
  | endOfList
  | endOfObject
  | endOfString
  | endOfValue
  | expectedColon
  | expectedListEnd
  | expectedObjectEnd
  | expectedWord
  | expectedValue
  | invalidEscape
  | invalidNumber
  | numberTooLarge
  | controlCharacter
  | keyNotString
  | loneSurrogate
  | trailingComma
  | trailingCharacters
  | halfSurrogatePair
  | tooDeep
  deriving DecidableEq, Repr

namespace Malformed

def message : Malformed → String
  | endOfList => "EOF while parsing a list"
  | endOfObject => "EOF while parsing an object"
  | endOfString => "EOF while parsing a string"
  | endOfValue => "EOF while parsing a value"
  | expectedColon => "expected `:`"
  | expectedListEnd => "expected `,` or `]`"
  | expectedObjectEnd => "expected `,` or `\x7d`"
  | expectedWord => "expected ident"
  | expectedValue => "expected value"
  | invalidEscape => "invalid escape"
  | invalidNumber => "invalid number"
  | numberTooLarge => "number out of range"
  | controlCharacter => "control character (\\u0000-\\u001F) found while parsing a string"
  | keyNotString => "key must be a string"
  | loneSurrogate => "lone leading surrogate in hex escape"
  | trailingComma => "trailing comma"
  | trailingCharacters => "trailing characters"
  | halfSurrogatePair => "unexpected end of hex escape"
  | tooDeep => "recursion limit exceeded"

/-- Whether the text ended too early. -/
def isEnd : Malformed → Bool
  | endOfList | endOfObject | endOfString | endOfValue => true
  | _ => false

end Malformed

/-- Why and where reading a text ended. -/
structure TextError where
  cause : Malformed
  line : Nat
  column : Nat
  deriving DecidableEq, Repr

def TextError.message (e : TextError) : String :=
  e.cause.message ++ " at line " ++ toString e.line ++ " column " ++ toString e.column

/-- The unread bytes, and how far reading has come. -/
structure Cursor where
  rest : List UInt8
  line : Nat
  column : Nat

namespace Cursor

def start (s : String) : Cursor := ⟨s.toUTF8.data.toList, 1, 0⟩

/-- Past one byte. -/
def step (c : Cursor) : Cursor :=
  match c.rest with
  | [] => c
  | b :: r => if b = 10 then ⟨r, c.line + 1, 0⟩ else ⟨r, c.line, c.column + 1⟩

/-- Past some bytes. -/
def steps : Nat → Cursor → Cursor
  | 0, c => c
  | n + 1, c => steps n c.step

/-- Fails here. -/
def fail (c : Cursor) (cause : Malformed) : Except TextError α :=
  .error ⟨cause, c.line, c.column⟩

/-- Fails at the byte that stands next. -/
def failNext (c : Cursor) (cause : Malformed) : Except TextError α := c.step.fail cause

/-- The byte that stands next; zero at the end. -/
def peek (c : Cursor) : UInt8 := c.rest.headD 0

def skipBlanks : List UInt8 → Cursor → Cursor
  | [], c => c
  | b :: r, c => if b = 32 ∨ b = 10 ∨ b = 9 ∨ b = 13 then skipBlanks r c.step else c

/-- Past blanks. -/
def blanks (c : Cursor) : Cursor := skipBlanks c.rest c

end Cursor

namespace Reading

def isDigit (b : UInt8) : Bool := 48 ≤ b && b ≤ 57

/-! ### Words and numbers -/

/-- Reads the rest of a word whose first letter is read. -/
def word (letters : List UInt8) (value : Json) (c : Cursor) : Except TextError (Json × Cursor) :=
  match letters with
  | [] => .ok (value, c)
  | l :: ls =>
    match c.rest with
    | [] => c.fail .endOfValue
    | b :: _ => if b = l then word ls value c.step else c.failNext .expectedWord

/-- Passes digits. -/
def skipDigits : List UInt8 → Cursor → Cursor
  | [], c => c
  | b :: r, c => if isDigit b then skipDigits r c.step else c

/-- The largest integer of a word. -/
def wordMax : Nat := UInt64.size - 1

/-- Takes digits into a significand while it fits a word. Answers also the number of digits taken
and whether one was left because the significand is full. -/
def significand : List UInt8 → Nat → Nat → Cursor → Nat × Nat × Bool × Cursor
  | [], m, taken, c => (m, taken, false, c)
  | b :: r, m, taken, c =>
    if isDigit b then
      let m' := m * 10 + (b.toNat - 48)
      if wordMax < m' then (m, taken, true, c) else significand r m' (taken + 1) c.step
    else (m, taken, false, c)

/-- A significand scaled by a power of ten, with both factors rounded first. A power beyond the
largest finite one overflows; a negative one that is too far is applied in two parts. -/
def scaled (m : Nat) (exponent : Int) : Option Binary64 :=
  let x := Binary64.ofInt m
  if 0 ≤ exponent then
    if m = 0 then some x
    else if 308 < exponent then none
    else match x.mul (Binary64.powTen exponent.toNat) with
      | .infinite _ => none
      | y => some y
  else go 400 x (-exponent).toNat
where
  go : Nat → Binary64 → Nat → Option Binary64
    | 0, x, _ => some x
    | fuel + 1, x, n =>
      if n ≤ 308 then some (x.div (Binary64.powTen n))
      else if x = .finite false 0 then some x
      else go fuel (x.div (Binary64.powTen 308)) (n - 308)

/-- Ends a number that is no integer. -/
def realNumber (positive : Bool) (m : Nat) (exponent : Int) (c : Cursor) :
    Except TextError (Json × Cursor) :=
  match scaled m exponent with
  | none => c.fail .numberTooLarge
  | some x => .ok (.number (.real (if positive then x else x.neg)), c)

/-- The largest exponent that is kept. -/
def exponentMax : Nat := Int32.maxValue.toNatClampNeg

/-- Takes the digits of an exponent; `none` when it grows beyond the largest. -/
def exponentDigits : List UInt8 → Nat → Cursor → Option Nat × Cursor
  | [], e, c => (some e, c)
  | b :: r, e, c =>
    if isDigit b then
      let e' := e * 10 + (b.toNat - 48)
      if exponentMax < e' then (none, c.step) else exponentDigits r e' c.step
    else (some e, c)

/-- Keeps an exponent within 32 bits. -/
def clampExponent (e : Int) : Int := max Int32.minValue.toInt (min e Int32.maxValue.toInt)

/-- Reads an exponent; its letter stands next. -/
def exponentPart (positive : Bool) (m : Nat) (start : Int) (c : Cursor) :
    Except TextError (Json × Cursor) :=
  let c := c.step
  let negativeExponent := c.peek = 45
  let c := if c.peek = 43 ∨ c.peek = 45 then c.step else c
  match c.rest with
  | [] => c.fail .endOfValue
  | b :: _ =>
    if !isDigit b then c.failNext .invalidNumber
    else
      match exponentDigits c.rest 0 c with
      | (some e, c) =>
        let e : Int := if negativeExponent then -(e : Int) else e
        realNumber positive m (clampExponent (start + e)) c
      | (none, c) =>
        if m ≠ 0 ∧ !negativeExponent then c.fail .numberTooLarge
        else
          let zero := Binary64.finite (!positive) 0
          .ok (.number (.real zero), skipDigits c.rest c)

/-- Ends a number before its exponent, if it has one. -/
def maybeExponent (positive : Bool) (m : Nat) (exponent : Int) (c : Cursor) :
    Except TextError (Json × Cursor) :=
  if c.peek = 101 ∨ c.peek = 69 then exponentPart positive m exponent c
  else realNumber positive m exponent c

/-- Reads a fraction; its point stands next. -/
def fractionPart (positive : Bool) (m : Nat) (start : Int) (c : Cursor) :
    Except TextError (Json × Cursor) :=
  let c := c.step
  match significand c.rest m 0 c with
  | (m, taken, true, c) => maybeExponent positive m (start - taken) (skipDigits c.rest c)
  | (m, taken, false, c) =>
    if taken = 0 then
      if c.rest.isEmpty then c.fail .endOfValue else c.failNext .invalidNumber
    else maybeExponent positive m (start - taken) c

/-- Ends a number after its integer digits. -/
def afterInteger (positive : Bool) (m : Nat) (c : Cursor) : Except TextError (Json × Cursor) :=
  if c.peek = 46 then fractionPart positive m 0 c
  else if c.peek = 101 ∨ c.peek = 69 then exponentPart positive m 0 c
  else if positive then .ok (.int m, c)
  else if m = 0 ∨ 1 <<< 63 < m then .ok (.number (.real (Binary64.ofInt m).neg), c)
  else .ok (.int (-(m : Int)), c)

/-- Reads a number after its sign. -/
def number (positive : Bool) (c : Cursor) : Except TextError (Json × Cursor) :=
  match c.rest with
  | [] => c.fail .endOfValue
  | b :: _ =>
    if b = 48 then
      let c := c.step
      if isDigit c.peek then c.failNext .invalidNumber else afterInteger positive 0 c
    else if isDigit b then
      match significand c.rest 0 0 c with
      | (m, _, false, c) => afterInteger positive m c
      | (m, _, true, c) =>
        let c' := skipDigits c.rest c
        let dropped := c.rest.length - c'.rest.length
        if c'.peek = 46 then fractionPart positive m dropped c'
        else maybeExponent positive m dropped c'
    else c.failNext .invalidNumber

/-! ### Strings -/

/-- The value of a hexadecimal digit. -/
def hexValue (b : UInt8) : Option Nat :=
  if 48 ≤ b ∧ b ≤ 57 then some (b.toNat - 48)
  else if 97 ≤ b ∧ b ≤ 102 then some (b.toNat - 87)
  else if 65 ≤ b ∧ b ≤ 70 then some (b.toNat - 55)
  else none

/-- Reads four hexadecimal digits. -/
def hexQuad (c : Cursor) : Except TextError (Nat × Cursor) :=
  match c.rest with
  | w :: x :: y :: z :: _ =>
    let after := c.steps 4
    match hexValue w, hexValue x, hexValue y, hexValue z with
    | some w, some x, some y, some z => .ok (((w * 16 + x) * 16 + y) * 16 + z, after)
    | _, _, _, _ => after.fail .invalidEscape
  | short => (c.steps short.length).fail .endOfString

/-- Reads a character spelled by its number, after the letter `u`. Two spelled halves make a
character above the basic plane. -/
def spelled (c : Cursor) : Except TextError (Char × Cursor) := do
  let (n, c) ← hexQuad c
  if 0xDC00 ≤ n ∧ n ≤ 0xDFFF then c.fail .loneSurrogate
  else if 0xD800 ≤ n ∧ n ≤ 0xDBFF then
    match c.rest with
    | [] => c.fail .endOfString
    | b :: _ =>
      if b ≠ 92 then c.failNext .halfSurrogatePair
      else
        let c := c.step
        match c.rest with
        | [] => c.fail .endOfString
        | b :: _ =>
          if b ≠ 117 then c.failNext .halfSurrogatePair
          else
            let (n₂, c) ← hexQuad c.step
            if 0xDC00 ≤ n₂ ∧ n₂ ≤ 0xDFFF then
              .ok (Char.ofNat (0x10000 + (n - 0xD800) * 0x400 + (n₂ - 0xDC00)), c)
            else c.fail .loneSurrogate
  else .ok (Char.ofNat n, c)

/-- Reads the character of an escape after its backslash. -/
def escaped (c : Cursor) : Except TextError (Char × Cursor) :=
  match c.rest with
  | [] => c.fail .endOfString
  | b :: _ =>
    let after := c.step
    match b with
    | 34 => .ok ('"', after)
    | 92 => .ok ('\\', after)
    | 47 => .ok ('/', after)
    | 98 => .ok ('\x08', after)
    | 102 => .ok ('\x0c', after)
    | 110 => .ok ('\n', after)
    | 114 => .ok ('\r', after)
    | 116 => .ok ('\t', after)
    | 117 => spelled after
    | _ => after.fail .invalidEscape

/-- Reads a string after its opening quote; `taken` holds its bytes in reverse. -/
def stringBody : Nat → List UInt8 → Cursor → Except TextError (String × Cursor)
  | 0, _, c => c.fail .endOfString
  | fuel + 1, taken, c =>
    match c.rest with
    | [] => c.fail .endOfString
    | b :: _ =>
      if b = 34 then
        .ok ((String.fromUTF8? ⟨taken.reverse.toArray⟩).getD "", c.step)
      else if b = 92 then do
        let (ch, c) ← escaped c.step
        stringBody fuel ((String.utf8EncodeChar ch).reverse ++ taken) c
      else if b < 32 then c.failNext .controlCharacter
      else stringBody fuel (b :: taken) c.step

/-- Reads a string after its opening quote. -/
def stringText (c : Cursor) : Except TextError (String × Cursor) :=
  stringBody (c.rest.length + 1) [] c

/-! ### Values -/

mutual

/-- Reads a value; `depth` is how many levels may still open. -/
def value : Nat → Nat → Cursor → Except TextError (Json × Cursor)
  | 0, _, c => c.fail .tooDeep
  | fuel + 1, depth, c =>
    let c := c.blanks
    match c.rest with
    | [] => c.fail .endOfValue
    | b :: _ =>
      match b with
      | 110 => word [117, 108, 108] .null c.step
      | 116 => word [114, 117, 101] (.bool true) c.step
      | 102 => word [97, 108, 115, 101] (.bool false) c.step
      | 45 => number false c.step
      | 34 => do
        let (s, c) ← stringText c.step
        .ok (.string s, c)
      | 91 =>
        if depth ≤ 1 then c.failNext .tooDeep else items fuel (depth - 1) true [] c.step
      | 123 =>
        if depth ≤ 1 then c.failNext .tooDeep else members fuel (depth - 1) true [] c.step
      | _ => if isDigit b then number true c else c.failNext .expectedValue

/-- Reads the items of an array; `taken` holds the earlier ones in reverse. -/
def items : Nat → Nat → Bool → List Json → Cursor → Except TextError (Json × Cursor)
  | 0, _, _, _, c => c.fail .tooDeep
  | fuel + 1, depth, first, taken, c =>
    let c := c.blanks
    match c.rest with
    | [] => c.fail .endOfList
    | b :: _ =>
      if b = 93 then .ok (.array taken.reverse, c.step)
      else if first then do
        let (j, c) ← value fuel depth c
        items fuel depth false (j :: taken) c
      else if b = 44 then
        let c := c.step.blanks
        match c.rest with
        | [] => c.fail .endOfValue
        | b :: _ =>
          if b = 93 then c.failNext .trailingComma
          else do
            let (j, c) ← value fuel depth c
            items fuel depth false (j :: taken) c
      else c.failNext .expectedListEnd

/-- Reads the members of an object; `taken` holds the earlier ones in reverse. -/
def members : Nat → Nat → Bool → List (String × Json) → Cursor →
    Except TextError (Json × Cursor)
  | 0, _, _, _, c => c.fail .tooDeep
  | fuel + 1, depth, first, taken, c =>
    let c := c.blanks
    match c.rest with
    | [] => c.fail .endOfObject
    | b :: _ =>
      if b = 125 then .ok (.object taken.reverse, c.step)
      else if b ≠ 44 ∧ !first then c.failNext .expectedObjectEnd
      else
        let c := if first then c else c.step.blanks
        match c.rest with
        | [] => c.fail .endOfValue
        | b :: _ =>
          if b = 34 then do
            let (k, c) ← stringText c.step
            let c := c.blanks
            match c.rest with
            | [] => c.fail .endOfObject
            | b :: _ =>
              if b = 58 then
                let (j, c) ← value fuel depth c.step
                members fuel depth false ((k, j) :: taken) c
              else c.failNext .expectedColon
          else if b = 125 then c.failNext .trailingComma
          else c.failNext .keyNotString

end

end Reading

/-- Reads a text that holds one value. -/
def parse (s : String) : Except TextError Json := do
  let c := Cursor.start s
  let (j, c) ← Reading.value (2 * c.rest.length + 2) 128 c
  let c := c.blanks
  if c.rest.isEmpty then .ok j else c.failNext .trailingCharacters

end StorageFeatures.Json
