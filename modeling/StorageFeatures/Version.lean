import StorageFeatures.Decimal.Word
import StorageFeatures.Text.Blank

/-!
# Versions of a cluster

A version is three numbers of 64 bits, ordered lexicographically. `Version.parse` reads what an
API server reports: blanks around it, one leading `v` and everything from the first `-` or `+` on
do not matter, and the rest is three runs of digits joined by points.
-/

namespace StorageFeatures

structure Version where
  major : Nat
  minor : Nat
  patch : Nat
  deriving DecidableEq, Repr

namespace Version

/-- Why a text is no version. -/
inductive Malformed where
  | missing (part : String)
  | badPart (cause : Word.Malformed)
  | tooManyParts
  deriving DecidableEq, Repr

def Malformed.message : Malformed → String
  | missing part => "missing " ++ part ++ " version"
  | badPart cause => cause.message
  | tooManyParts => "too many version components"

instance : ToString Version :=
  ⟨fun v => "v" ++ toString v.major ++ "." ++ toString v.minor ++ "." ++ toString v.patch⟩

/-- Whether a version is `least` or newer. -/
def atLeast (v least : Version) : Bool :=
  least.major < v.major ||
    (least.major = v.major &&
      (least.minor < v.minor || (least.minor = v.minor && least.patch ≤ v.patch)))

/-! ### Reading -/

/-- The pieces between points. -/
def pieces : List Char → List (List Char)
  | [] => [[]]
  | c :: r =>
    if c = '.' then [] :: pieces r
    else match pieces r with
      | p :: ps => (c :: p) :: ps
      | [] => [[c]]

/-- Reads a part that must be there and must not be empty. -/
def part (name : String) : List (List Char) → Except Malformed (Nat × List (List Char))
  | [] | [] :: _ => .error (.missing name)
  | p :: ps => do
    let n ← (Word.digits 0 p).mapError .badPart
    return (n, ps)

/-- Without one leading `v`. -/
def dropMark : List Char → List Char
  | 'v' :: cs => cs
  | cs => cs

/-- What stands before the first `-` or `+`. -/
def core (cs : List Char) : List Char := cs.takeWhile fun c => c ≠ '-' && c ≠ '+'

/-- Reads three parts. -/
def ofPieces (ps : List (List Char)) : Except Malformed Version := do
  let (major, ps) ← part "major" ps
  let (minor, ps) ← part "minor" ps
  let (patch, ps) ← part "patch" ps
  if ps.isEmpty then return ⟨major, minor, patch⟩ else .error .tooManyParts

/-- Reads the version that a server reports. -/
def parse (raw : String) : Except Malformed Version :=
  ofPieces (pieces (core (dropMark (Text.trimChars raw.toList))))

/-! ### Laws -/

theorem atLeast_refl (v : Version) : v.atLeast v = true := by
  simp [atLeast]

/-- Of two versions one is at least the other. -/
theorem atLeast_total (v w : Version) : v.atLeast w = true ∨ w.atLeast v = true := by
  simp only [atLeast, Bool.or_eq_true, Bool.and_eq_true, decide_eq_true_eq]
  omega

/-- There is always a piece before the first separator. -/
theorem pieces_ne_nil (cs : List Char) : pieces cs ≠ [] := by
  induction cs with
  | nil => simp [pieces]
  | cons c r ih =>
    unfold pieces
    split
    · simp
    · split <;> simp

end Version

end StorageFeatures
