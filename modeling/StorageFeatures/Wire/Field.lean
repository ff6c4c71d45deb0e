import StorageFeatures.Wire.Varint

/-!
# Fields of a message

A message is a sequence of fields. A field begins with a key, which holds its number and the form
of its payload. `Wire.fields` cuts a message into its fields; payloads that no message of this
library uses are passed over, but they must be complete, and groups must close.
-/

namespace StorageFeatures.Wire

/-- The form of a payload. -/
inductive Form where
  | varint
  | fixed64
  | delimited
  | groupStart
  | groupEnd
  | fixed32
  deriving DecidableEq, Repr

namespace Form

def code : Form → Nat
  | varint => 0
  | fixed64 => 1
  | delimited => 2
  | groupStart => 3
  | groupEnd => 4
  | fixed32 => 5

def ofCode? : Nat → Option Form
  | 0 => some varint
  | 1 => some fixed64
  | 2 => some delimited
  | 3 => some groupStart
  | 4 => some groupEnd
  | 5 => some fixed32
  | _ => none

/-- A form is read back from its code. -/
@[simp] theorem ofCode?_code (f : Form) : ofCode? f.code = some f := by
  cases f <;> rfl

end Form

/-- What a field holds. -/
inductive Payload where
  | number (n : Nat)
  | bytes (b : List UInt8)
  | skipped
  deriving DecidableEq, Repr

/-- How deep messages and groups may nest. -/
def depthLimit : Nat := 100

/-- Writes a key. -/
def key (number : Nat) (form : Form) : List UInt8 := Varint.encode (number * 8 + form.code)

/-- Reads a key; numbers start at one and a key has 32 bits. -/
def takeKey (bytes : List UInt8) : Option (Nat × Form × List UInt8) := do
  let (k, r) ← Varint.decode bytes
  if UInt32.size ≤ k then none
  else
    let form ← Form.ofCode? (k % 8)
    if k / 8 = 0 then none else some (k / 8, form, r)

/-- Reads a length and so many bytes. -/
def takeDelimited (bytes : List UInt8) : Option (List UInt8 × List UInt8) := do
  let (n, r) ← Varint.decode bytes
  if r.length < n then none else some (r.take n, r.drop n)

/-- Drops so many bytes. -/
def dropExactly (n : Nat) (bytes : List UInt8) : Option (List UInt8) :=
  if bytes.length < n then none else some (bytes.drop n)

mutual

/-- Passes over a payload; `depth` is how many levels may still open. -/
def skip : Nat → Nat → Nat → Form → List UInt8 → Option (List UInt8)
  | 0, _, _, _, _ => none
  | fuel + 1, depth, number, form, bytes =>
    if depth = 0 then none
    else match form with
      | .varint => (Varint.decode bytes).map (·.2)
      | .fixed64 => dropExactly 8 bytes
      | .fixed32 => dropExactly 4 bytes
      | .delimited => (takeDelimited bytes).map (·.2)
      | .groupStart => skipGroup fuel (depth - 1) number bytes
      | .groupEnd => none

/-- Passes over the fields of a group and its end. -/
def skipGroup : Nat → Nat → Nat → List UInt8 → Option (List UInt8)
  | 0, _, _, _ => none
  | fuel + 1, depth, number, bytes => do
    let (inner, form, r) ← takeKey bytes
    if form = .groupEnd then
      if inner = number then some r else none
    else
      let r ← skip fuel depth inner form r
      skipGroup fuel depth number r

end

/-- Reads the payload of a field. -/
def takePayload (depth number : Nat) (form : Form) (bytes : List UInt8) :
    Option (Payload × List UInt8) :=
  match form with
  | .varint => (Varint.decode bytes).map fun (n, r) => (.number n, r)
  | .delimited => (takeDelimited bytes).map fun (b, r) => (.bytes b, r)
  | form => (skip (2 * bytes.length + 2) depth number form bytes).map fun r => (.skipped, r)

/-- Cuts a message of at most `fuel` fields into its fields. The payload of a field for which
`alwaysDelimited` holds has a length in front, whatever its key says. -/
def cut (alwaysDelimited : Nat → Bool) (depth : Nat) :
    Nat → List UInt8 → Option (List (Nat × Payload))
  | _, [] => some []
  | 0, _ => none
  | fuel + 1, bytes => do
    let (number, form, r) ← takeKey bytes
    let form := if alwaysDelimited number then .delimited else form
    let (payload, r) ← takePayload depth number form r
    let fields ← cut alwaysDelimited depth fuel r
    return (number, payload) :: fields

/-- The fields of a message. -/
def fields (alwaysDelimited : Nat → Bool) (depth : Nat) (bytes : List UInt8) :
    Option (List (Nat × Payload)) :=
  cut alwaysDelimited depth bytes.length bytes

/-- A field with bytes. -/
def delimitedField (number : Nat) (b : List UInt8) : List UInt8 :=
  key number .delimited ++ Varint.encode b.length ++ b

/-- A field with a number. -/
def numberField (number n : Nat) : List UInt8 := key number .varint ++ Varint.encode n

/-! ### Laws -/

/-- A key is read back as its number and form, as long as the number fits the 29 bits it is given.
-/
theorem takeKey_key {number : Nat} (form : Form) (h : 0 < number) (h' : number < 536870912)
    (rest : List UInt8) : takeKey (key number form ++ rest) = some (number, form, rest) := by
  have hc : form.code < 8 := by cases form <;> decide
  have hk : number * 8 + form.code < UInt32.size := by unfold UInt32.size; omega
  have hk' : number * 8 + form.code < UInt64.size := by unfold UInt64.size; omega
  simp [takeKey, key, Varint.decode_encode hk', Nat.not_le.mpr hk,
    show (number * 8 + form.code) % 8 = form.code by omega,
    show (number * 8 + form.code) / 8 = number by omega]
  omega

/-- Bytes behind their length are read back, and what follows them is left. -/
theorem takeDelimited_append {b : List UInt8} (h : b.length < UInt64.size) (rest : List UInt8) :
    takeDelimited (Varint.encode b.length ++ (b ++ rest)) = some (b, rest) := by
  simp [takeDelimited, Varint.decode_encode h]

end StorageFeatures.Wire
