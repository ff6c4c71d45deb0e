import StorageFeatures.Csi.Message
import StorageFeatures.Wire.Field

/-!
# Encoded messages of a storage plugin

Each message has an `encode` and a `decode`. A text or number with its default is not written; an
entry that says something is written even if its number is zero. Reading passes over unknown
fields, takes the last of repeated fields, and merges an entry that is repeated with the same
case.
-/

namespace StorageFeatures.Csi

open Wire

/-- An enumeration number as a number of 64 bits, with its sign extended. -/
def wireNumber (n : Int32) : Nat := if n < 0 then (UInt64.size + n.toInt).toNat else n.toInt.toNat

/-- The enumeration number in the lowest 32 bits. -/
def ofWireNumber (n : Nat) : Int32 := Int32.ofNat n

/-- The text that some bytes encode. -/
def textOf? (b : List UInt8) : Option String := String.fromUTF8? ⟨b.toArray⟩

def bytesOf (s : String) : List UInt8 := s.toUTF8.toList

def textField (number : Nat) (s : String) : List UInt8 :=
  if s.isEmpty then [] else delimitedField number (bytesOf s)

/-- The payload of a field that has to hold a text. -/
def payloadText? : Payload → Option String
  | .bytes b => textOf? b
  | _ => none

/-- Reads each field into the value read so far. -/
def readFields (step : σ → Nat → Payload → Option σ) (start : σ) :
    List (Nat × Payload) → Option σ
  | [] => some start
  | (number, payload) :: r => do
    let s ← step start number payload
    readFields step s r

/-! ### Entries -/

/-- The message inside an entry: an enumeration number. -/
def encodeNumber (n : Int32) : List UInt8 := if n = 0 then [] else numberField 1 (wireNumber n)

/-- Reads an enumeration number on top of an earlier one. -/
def mergeNumber (depth : Nat) (earlier : Int32) (b : List UInt8) : Option Int32 := do
  let fs ← fields (fun _ => false) depth b
  readFields (fun n number payload =>
    match number, payload with
    | 1, .number w => some (ofWireNumber w)
    | 1, _ => none
    | _, _ => some n) earlier fs

def encodePluginEntry : Option PluginEntry → List UInt8
  | none => []
  | some (.service n) => delimitedField 1 (encodeNumber n)
  | some (.expansion n) => delimitedField 2 (encodeNumber n)

def decodePluginEntryAt (depth : Nat) (bytes : List UInt8) : Option (Option PluginEntry) := do
  let fs ← fields (fun _ => false) depth bytes
  readFields (fun entry number payload =>
    match number, payload with
    | 1, .bytes b =>
      let earlier := match entry with
        | some (.service n) => n
        | _ => 0
      (mergeNumber (depth - 1) earlier b).map fun n => some (.service n)
    | 2, .bytes b =>
      let earlier := match entry with
        | some (.expansion n) => n
        | _ => 0
      (mergeNumber (depth - 1) earlier b).map fun n => some (.expansion n)
    | 1, _ | 2, _ => none
    | _, _ => some entry) none fs

def encodeRpcEntry : Option Int32 → List UInt8
  | none => []
  | some n => delimitedField 1 (encodeNumber n)

def decodeRpcEntryAt (depth : Nat) (bytes : List UInt8) : Option (Option Int32) := do
  let fs ← fields (fun _ => false) depth bytes
  readFields (fun entry number payload =>
    match number, payload with
    | 1, .bytes b => (mergeNumber (depth - 1) (entry.getD 0) b).map some
    | 1, _ => none
    | _, _ => some entry) none fs

def decodePluginEntry (bytes : List UInt8) : Option (Option PluginEntry) :=
  decodePluginEntryAt depthLimit bytes

def decodeRpcEntry (bytes : List UInt8) : Option (Option Int32) :=
  decodeRpcEntryAt depthLimit bytes

/-! ### Lists of entries -/

/-- A message whose first field repeats. -/
def encodeEntries (encode : α → List UInt8) (entries : List α) : List UInt8 :=
  entries.flatMap fun e => delimitedField 1 (encode e)

def decodeEntries (decode : List UInt8 → Option α) (bytes : List UInt8) : Option (List α) := do
  let fs ← fields (fun _ => false) depthLimit bytes
  let reversed ← readFields (fun entries number payload =>
    match number, payload with
    | 1, .bytes b => (decode b).map (· :: entries)
    | 1, _ => none
    | _, _ => some entries) [] fs
  return reversed.reverse

def encodePluginEntries : PluginEntries → List UInt8 := encodeEntries encodePluginEntry

def decodePluginEntries : List UInt8 → Option PluginEntries :=
  decodeEntries (decodePluginEntryAt (depthLimit - 1))

def encodeRpcEntries : RpcEntries → List UInt8 := encodeEntries encodeRpcEntry

def decodeRpcEntries : List UInt8 → Option RpcEntries :=
  decodeEntries (decodeRpcEntryAt (depthLimit - 1))

/-! ### Identity -/

/-- An entry of the manifest is a message of its own. -/
def encodeManifestEntry (k v : String) : List UInt8 := textField 1 k ++ textField 2 v

def decodeManifestEntry (bytes : List UInt8) : Option (String × String) := do
  let fs ← fields (fun _ => false) (depthLimit - 1) bytes
  readFields (fun (k, v) number payload =>
    match number with
    | 1 => (payloadText? payload).map fun k => (k, v)
    | 2 => (payloadText? payload).map fun v => (k, v)
    | _ => some (k, v)) ("", "") fs

def encodeIdentity (p : PluginIdentity) : List UInt8 :=
  textField 1 p.name ++ textField 2 p.vendorVersion ++
    p.manifest.entries.flatMap fun (k, v) => delimitedField 3 (encodeManifestEntry k v)

def decodeIdentity (bytes : List UInt8) : Option PluginIdentity := do
  let fs ← fields (fun number => number = 3) depthLimit bytes
  readFields (fun p number payload =>
    match number with
    | 1 => (payloadText? payload).map fun name => { p with name }
    | 2 => (payloadText? payload).map fun vendorVersion => { p with vendorVersion }
    | 3 =>
      match payload with
      | .bytes b =>
        (decodeManifestEntry b).map fun (k, v) => { p with manifest := p.manifest.insert k v }
      | _ => none
    | _ => some p) {} fs

end StorageFeatures.Csi
