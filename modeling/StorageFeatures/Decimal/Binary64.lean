/-!
# Binary floating-point numbers of 64 bits

`Binary64` is the number type of metric samples and of JSON numbers that are no integers.
A finite number is a whole count of `2 ^ -1074`, the least positive magnitude, so sums are
exact integer sums followed by one rounding. `Binary64.ofRatio` rounds any quotient to the
nearest number, a tie to the even neighbour, and answers an infinity above the largest
finite number; `Binary64.roundDiv_within` says that rounding moves a quotient by half a unit at
most.
-/

namespace StorageFeatures

/-- A floating-point number: `finite s n` is `± n · 2 ^ -1074`, negative when `s` holds. -/
inductive Binary64 where
  | finite (negative : Bool) (units : Nat)
  | infinite (negative : Bool)
  | nan
  deriving DecidableEq, Repr

namespace Binary64

/-- The number of units in one: the exponent of the least positive magnitude. -/
def scale : Nat := 1074

/-- Significant binary digits of a number. -/
def precision : Nat := 53

/-- The first count of units that is too large for a finite number, `2 ^ 1024`. -/
def limit : Nat := 1 <<< (1024 + scale)

/-- The distance, as a power of two, between neighbours of a number with `n` units. -/
def spacing (n : Nat) : Nat := Nat.log2 n + 1 - precision

/-- The quotient rounded to the nearest integer, a tie to the even one. -/
def roundDiv (num den : Nat) : Nat :=
  let q := num / den
  let r := num % den
  if 2 * r < den then q
  else if 2 * r > den then q + 1
  else if q % 2 = 0 then q else q + 1

/-- The number nearest to `± num / den`. -/
def ofRatio (negative : Bool) (num den : Nat) : Binary64 :=
  let scaled := num <<< scale
  let step := 1 <<< spacing (scaled / den)
  let units := roundDiv scaled (den * step) * step
  if units < limit then .finite negative units else .infinite negative

/-- The number nearest to an integer. -/
def ofInt (n : Int) : Binary64 := ofRatio (n < 0) n.natAbs 1

def zero : Binary64 := .finite false 0

/-- The signed count of units. -/
private def signed (negative : Bool) (units : Nat) : Int :=
  if negative then -(units : Int) else units

/-- The sum, rounded once. -/
def add : Binary64 → Binary64 → Binary64
  | .finite s m, .finite t n =>
    if m = 0 ∧ n = 0 then .finite (s && t) 0
    else
      let sum := signed s m + signed t n
      ofRatio (sum < 0) sum.natAbs (1 <<< scale)
  | .nan, _ | _, .nan => .nan
  | .infinite s, .infinite t => if s = t then .infinite s else .nan
  | .infinite s, .finite .. | .finite .., .infinite s => .infinite s

/-- The product, rounded once; zero times an infinity is no number. -/
def mul : Binary64 → Binary64 → Binary64
  | .finite s m, .finite t n => ofRatio (s != t) (m * n) (1 <<< (2 * scale))
  | .infinite s, .finite t n | .finite s n, .infinite t =>
    if n = 0 then .nan else .infinite (s != t)
  | .infinite s, .infinite t => .infinite (s != t)
  | .nan, _ | _, .nan => .nan

/-- The quotient by a positive number, rounded once. -/
def div : Binary64 → Binary64 → Binary64
  | .finite s m, .finite t n => if n = 0 then .nan else ofRatio (s != t) m n
  | .infinite s, .finite t _ => .infinite (s != t)
  | .finite s _, .infinite t => .finite (s != t) 0
  | _, _ => .nan

def neg : Binary64 → Binary64
  | .finite s n => .finite (!s) n
  | .infinite s => .infinite (!s)
  | .nan => .nan

/-- Order of magnitudes with sign; a number that is no number is below nothing. -/
def le : Binary64 → Binary64 → Bool
  | .nan, _ | _, .nan => false
  | .infinite s, .infinite t => s || !t
  | .infinite s, .finite .. => s
  | .finite .., .infinite t => !t
  | .finite s m, .finite t n => signed s m ≤ signed t n

/-- The nearest number to `10 ^ n`. -/
def powTen (n : Nat) : Binary64 := ofRatio false (Nat.pow 10 n) 1

/-- A rounded quotient is within half a unit of the quotient. -/
theorem roundDiv_within {num den : Nat} (h : 0 < den) :
    2 * num ≤ (2 * roundDiv num den + 1) * den ∧ 2 * roundDiv num den * den ≤ 2 * num + den := by
  have hsplit := Nat.div_add_mod num den
  have hlt := Nat.mod_lt num h
  have hq (n : Nat) : (2 * n + 1) * den = 2 * (den * n) + den := by grind
  have hd (n : Nat) : 2 * n * den = 2 * (den * n) := by grind
  have hs : den * (num / den + 1) = den * (num / den) + den := Nat.mul_succ ..
  rw [hq, hd]
  unfold roundDiv
  dsimp only
  split
  · omega
  · split
    · omega
    · split <;> omega

/-- Zero is represented exactly, whatever it is divided by. -/
theorem ofRatio_zero (s : Bool) (den : Nat) : ofRatio s 0 den = .finite s 0 := by
  have h : 0 < limit := by decide
  simp [ofRatio, roundDiv, h]

end Binary64

end StorageFeatures
