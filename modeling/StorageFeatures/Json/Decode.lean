import StorageFeatures.Json.Basic
import StorageFeatures.Text.Quoted

/-!
# Reading typed values out of JSON

A reader is a function `Json → Except Mismatch α`; a `Mismatch` says what was found and what
was expected. Objects are read by look-ups, so the order of members and members that nobody asks
for never matter (`field_eq_of_lookup`). A record may also be given as an array of its fields in
the order of their declaration.
-/

namespace StorageFeatures.Json

/-- What stands where something else was expected. -/
inductive Found where
  | null
  | boolean (value : Bool)
  | integer (value : Int)
  | real (value : Binary64)
  | text (value : String)
  | map
  | sequence
  deriving DecidableEq, Repr

/-- Why a JSON value cannot be read as a typed one. -/
inductive Mismatch where
  | wrongType (found : Found) (expected : String)
  | wrongValue (found : Found) (expected : String)
  | wrongLength (length : Nat) (expected : String)
  | missingField (name : String)
  | repeatedField (name : String)
  | unknownVariant (name : String) (known : List String)
  deriving DecidableEq, Repr

namespace Found

/-- Floating-point numbers show a fraction even where there is none. -/
private def realText (x : Binary64) : String :=
  let s := x.text
  if s.toList.contains '.' then s else s ++ ".0"

def message : Found → String
  | null => "null"
  | boolean b => "boolean `" ++ (if b then "true" else "false") ++ "`"
  | integer n => "integer `" ++ toString n ++ "`"
  | real x => "floating point `" ++ realText x ++ "`"
  | text s => "string " ++ Text.quote s
  | map => "map"
  | sequence => "sequence"

end Found

namespace Mismatch

def message : Mismatch → String
  | wrongType found expected => "invalid type: " ++ found.message ++ ", expected " ++ expected
  | wrongValue found expected => "invalid value: " ++ found.message ++ ", expected " ++ expected
  | wrongLength n expected => "invalid length " ++ toString n ++ ", expected " ++ expected
  | missingField name => "missing field `" ++ name ++ "`"
  | repeatedField name => "duplicate field `" ++ name ++ "`"
  | unknownVariant name known =>
    "unknown variant `" ++ name ++ "`, expected one of " ++
      ", ".intercalate (known.map fun k => "`" ++ k ++ "`")

end Mismatch

/-- What a value is found to be. -/
def found : Json → Found
  | null => .null
  | bool b => .boolean b
  | number (.integer n) => .integer n
  | number (.real x) => .real x
  | string s => .text s
  | array _ => .sequence
  | object _ => .map

/-- A reader. -/
abbrev Reads (α : Type) := Json → Except Mismatch α

def readBool : Reads Bool
  | bool b => .ok b
  | j => .error (.wrongType j.found "a boolean")

def readString : Reads String
  | string s => .ok s
  | j => .error (.wrongType j.found "a string")

/-- An integer between two bounds. -/
def readInteger (low high : Int) (expected : String) : Reads Int
  | number (.integer n) =>
    if low ≤ n ∧ n ≤ high then .ok n else .error (.wrongValue (.integer n) expected)
  | j => .error (.wrongType j.found expected)

def readInt64 : Reads Int := readInteger Int64.minValue.toInt Int64.maxValue.toInt "i64"

/-- Null stands for no value. -/
def readOption (read : Reads α) : Reads (Option α)
  | null => .ok none
  | j => (read j).map some

def readItems (read : Reads α) : List Json → Except Mismatch (List α)
  | [] => .ok []
  | j :: r => do
    let a ← read j
    let as ← readItems read r
    return a :: as

def readList (read : Reads α) : Reads (List α)
  | array items => readItems read items
  | j => .error (.wrongType j.found "a sequence")

def readNameItems : List (String × Json) → NameMap String → Except Mismatch (NameMap String)
  | [], m => .ok m
  | (k, j) :: r, m => do
    let s ← readString j
    readNameItems r (m.insert k s)

/-- An object with texts as values. -/
def readNames : Reads (NameMap String)
  | object ms => readNameItems ms ∅
  | j => .error (.wrongType j.found "a map")

/-! ### Fields -/

/-- How often a name occurs. -/
def occurrences (k : String) (ms : List (String × Json)) : Nat := ms.countP (·.1 = k)

/-- A field that may be missing and must not be repeated. -/
def field (ms : List (String × Json)) (k : String) (read : Reads α) :
    Except Mismatch (Option α) :=
  if 1 < occurrences k ms then .error (.repeatedField k)
  else match lookup k ms with
    | none => .ok none
    | some j => (read j).map some

/-- A field of which the last occurrence counts, and which is absent where it is null. -/
def lastField (ms : List (String × Json)) (k : String) (read : Reads α) :
    Except Mismatch (Option α) :=
  match lookup k ms with
  | none => .ok none
  | some j => readOption read j

/-- A field that has to be there. -/
def require (k : String) : Option α → Except Mismatch α
  | some a => .ok a
  | none => .error (.missingField k)

/-- The item at a place of a record that is given as an array. -/
def item (items : List Json) (i : Nat) (read : Reads α) : Except Mismatch (Option α) :=
  match items[i]? with
  | none => .ok none
  | some j => (read j).map some

/-- An item that has to be there; `shape` names the record and its number of fields. -/
def requireItem (i : Nat) (shape : String) : Option α → Except Mismatch α
  | some a => .ok a
  | none => .error (.wrongLength i shape)

/-- No items are left after the fields of a record. -/
def noMoreItems (items : List Json) (fields : Nat) : Except Mismatch Unit :=
  if fields < items.length then
    .error (.wrongLength items.length "fewer elements in array")
  else .ok ()

/-! ### Laws -/

/-- Which members are asked for is all that a field depends on. -/
theorem field_eq_of_lookup {ms ms' : List (String × Json)} {k : String} (read : Reads α)
    (h : occurrences k ms = occurrences k ms') (h' : lookup k ms = lookup k ms') :
    field ms k read = field ms' k read := by
  simp [field, h, h']

/-- A list is read item by item. -/
theorem readItems_map {read : Reads α} {write : β → Json} {f : β → α} {l : List β}
    (h : ∀ b ∈ l, read (write b) = .ok (f b)) : readItems read (l.map write) = .ok (l.map f) := by
  induction l with
  | nil => rfl
  | cons b r ih =>
    simp only [List.map_cons, readItems, h b (by simp), ih fun c hc => h c (by simp [hc])]
    rfl

end StorageFeatures.Json
