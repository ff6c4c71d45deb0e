import StorageFeatures.Json.Basic

/-!
# Writing JSON text

`Json.compact` writes a value on one line without blanks. Members are written in the order in
which they stand.
-/

namespace StorageFeatures.Json

/-- Two hexadecimal digits of a control character. -/
def controlDigits (n : Nat) : List Char := [Nat.digitChar (n / 16), Nat.digitChar (n % 16)]

/-- How a character stands inside a string. -/
def escapeChar (c : Char) : List Char :=
  if c = '"' then ['\\', '"']
  else if c = '\\' then ['\\', '\\']
  else if c = '\n' then ['\\', 'n']
  else if c = '\r' then ['\\', 'r']
  else if c = '\t' then ['\\', 't']
  else if c.toNat = 8 then ['\\', 'b']
  else if c.toNat = 12 then ['\\', 'f']
  else if c.toNat < 0x20 then ['\\', 'u', '0', '0'] ++ controlDigits c.toNat
  else [c]

/-- A string between quotes. -/
def stringLiteral (s : String) : String :=
  String.ofList ('"' :: (s.toList.flatMap escapeChar ++ ['"']))

/-- The text of a floating-point number: positional for magnitudes from 10⁻⁵ to 10¹⁶, else with
an exponent; never without a point or an exponent. -/
def realLiteral : Binary64 → String
  | .finite negative units =>
    let sign := if negative then "-" else ""
    if units = 0 then sign ++ "0.0"
    else
      let d := Binary64.shortest units
      let digits := Nat.toDigits 10 d.coefficient
      let top : Int := digits.length + d.exponent
      if 0 ≤ d.exponent ∧ top ≤ 16 then sign ++ d.text ++ ".0"
      else if -5 < top ∧ top ≤ 16 then sign ++ d.text
      else
        let mantissa := match digits with
          | [c] => [c]
          | c :: r => c :: '.' :: r
          | [] => []
        sign ++ String.ofList mantissa ++ "e" ++ toString (top - 1)
  | _ => "null"

def numberLiteral : Number → String
  | .integer n => toString n
  | .real x => realLiteral x

mutual

/-- Adds the text of a value to what is written. -/
def write (out : String) : Json → String
  | .null => out ++ "null"
  | .bool b => out ++ (if b then "true" else "false")
  | .number n => out ++ numberLiteral n
  | .string s => out ++ stringLiteral s
  | .array items => writeItems (out ++ "[") true items ++ "]"
  | .object ms => writeMembers (out ++ "\x7b") true ms ++ "\x7d"

def writeItems (out : String) (first : Bool) : List Json → String
  | [] => out
  | j :: r => writeItems (write (if first then out else out ++ ",") j) false r

def writeMembers (out : String) (first : Bool) : List (String × Json) → String
  | [] => out
  | (k, j) :: r =>
    let out := if first then out else out ++ ","
    writeMembers (write (out ++ stringLiteral k ++ ":") j) false r

end

/-- The text of a value. -/
def compact (j : Json) : String := write "" j

end StorageFeatures.Json
