import StorageFeatures.Decimal.Binary64

/-!
# Shortest decimal text of a floating-point number

`Binary64.text` writes the fewest decimal digits that read back as the same number, always in
positional notation and without a fraction when there is none. The digits are found by trying
grids of one, two, … seventeen digits: the two grid points around the number are tested for
lying in the interval of reals that round to it.
-/

namespace StorageFeatures

/-- A positive decimal number `coefficient · 10 ^ exponent`. -/
structure Decimal where
  coefficient : Nat
  exponent : Int
  deriving DecidableEq, Repr

namespace Decimal

/-- The decimal as a quotient of naturals. -/
def ratio (d : Decimal) : Nat × Nat :=
  if d.exponent < 0 then (d.coefficient, Nat.pow 10 (-d.exponent).toNat)
  else (d.coefficient * Nat.pow 10 d.exponent.toNat, 1)

/-- Positional text: no exponent, and a point only before a fraction. -/
def text (d : Decimal) : String :=
  let digits := Nat.toDigits 10 d.coefficient
  if 0 ≤ d.exponent then
    String.ofList (digits ++ List.replicate d.exponent.toNat '0')
  else
    let places := (-d.exponent).toNat
    if digits.length ≤ places then
      String.ofList ('0' :: '.' :: (List.replicate (places - digits.length) '0' ++ digits))
    else
      String.ofList (digits.take (digits.length - places) ++
        '.' :: digits.drop (digits.length - places))

/-- The same number without trailing zeros in the coefficient. -/
def trim : Nat → Decimal → Decimal
  | 0, d => d
  | fuel + 1, d =>
    if d.coefficient % 10 = 0 ∧ d.coefficient ≠ 0 then
      trim fuel ⟨d.coefficient / 10, d.exponent + 1⟩
    else d

end Decimal

namespace Binary64

/-- Twice the ends of the interval of reals that round to a number with `n` units, in units,
and whether the ends belong to it. -/
def interval (n : Nat) : Nat × Nat × Bool :=
  let step := 1 <<< spacing n
  let below := if n = 1 <<< Nat.log2 n ∧ 0 < spacing n then step / 2 else step
  (2 * n - below, 2 * n + step, (n / step) % 2 = 0)

/-- Whether a decimal rounds to the number with `n` units. -/
def readsBack (n : Nat) (d : Decimal) : Bool :=
  let (num, den) := d.ratio
  let twice := (2 * num) <<< scale
  let (low, high, closed) := interval n
  if closed then low * den ≤ twice && twice ≤ high * den
  else low * den < twice && twice < high * den

/-- The number of decimal digits before the point of `num / den`, or minus the number of zeros
after it. -/
def magnitude (num den : Nat) : Int :=
  if den ≤ num then ((Nat.toDigits 10 (num / den)).length : Int)
  else go 400 num
where
  go : Nat → Nat → Int
    | 0, _ => 0
    | fuel + 1, m => if den ≤ 10 * m then 0 else go fuel (10 * m) - 1

/-- Of the two grid points around the number, the nearer one that reads back. -/
def nearestOnGrid (n : Nat) (exponent : Int) : Option Decimal :=
  let (gridNum, gridDen) := (Decimal.mk 1 exponent).ratio
  let num := n * gridDen
  let den := gridNum <<< scale
  let low : Decimal := ⟨num / den, exponent⟩
  let high : Decimal := ⟨num / den + 1, exponent⟩
  match readsBack n low, readsBack n high with
  | true, true => if 2 * (num % den) < den then some low else some high
  | true, false => some low
  | false, true => some high
  | false, false => none

/-- The decimal with the fewest digits that reads back as the number with `n` units. -/
def shortest (n : Nat) : Decimal :=
  let top := magnitude n (1 <<< scale)
  let grid (digits : Nat) : Option Decimal := nearestOnGrid n (top - (digits : Int) - 1)
  match (List.range 17).findSome? grid with
  | some d => d.trim 400
  | none => ⟨0, 0⟩

/-- The text of a number in metric output and in messages. -/
def text : Binary64 → String
  | .nan => "NaN"
  | .infinite negative => if negative then "-inf" else "inf"
  | .finite negative units =>
    let magnitude := if units = 0 then "0" else (shortest units).text
    if negative then "-" ++ magnitude else magnitude

end Binary64

end StorageFeatures
