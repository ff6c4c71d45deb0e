import StorageFeatures.Fault
import StorageFeatures.Text.Blank

/-!
# Addresses of storage plugins

A plugin listens on a Unix socket or on a TCP endpoint. `Address.parse` takes a socket path with
or without its scheme, an endpoint with its scheme, or a bare host, which is given the scheme
`http`. The written form of an address reads back as the same address.

A socket path is always worth a try, while an endpoint has to be a valid target first. The faults
of an address and of a connection are told apart: the first are never cured by trying again.
-/

namespace StorageFeatures

inductive Address where
  | unix (path : String)
  | tcp (url : String)
  deriving DecidableEq, Repr

namespace Address

/-- Why a text is no address. -/
inductive Malformed where
  | empty
  | noSocketPath (address : String)
  deriving DecidableEq, Repr

def Malformed.message : Malformed → String
  | empty => "CSI address must not be empty"
  | noSocketPath address => "CSI address " ++ address ++ " has no socket path"

def unixScheme : List Char := "unix://".toList
def httpScheme : List Char := "http://".toList
def httpsScheme : List Char := "https://".toList

/-- What follows `start`, where the characters begin with it. -/
def after? (start cs : List Char) : Option (List Char) :=
  if start.isPrefixOf cs then some (cs.drop start.length) else none

instance : ToString Address where
  toString
    | unix path => "unix://" ++ path
    | tcp url => url

/-- Reads an address without blanks around it. -/
def ofChars (cs : List Char) : Except Malformed Address :=
  match cs with
  | [] => .error .empty
  | '/' :: _ => .ok (.unix (String.ofList cs))
  | _ =>
    match after? unixScheme cs with
    | some [] => .error (.noSocketPath (String.ofList cs))
    | some path => .ok (.unix (String.ofList path))
    | none =>
      if httpScheme.isPrefixOf cs || httpsScheme.isPrefixOf cs then
        .ok (.tcp (String.ofList cs))
      else .ok (.tcp ("http://" ++ String.ofList cs))

def parse (raw : String) : Except Malformed Address := ofChars (Text.trimChars raw.toList)

/-- What follows a beginning is found. -/
theorem after?_append (start cs : List Char) : after? start (start ++ cs) = some cs := by
  simp [after?]

/-- Only what begins with `start` has something after it. -/
theorem after?_eq_some_iff {start cs r : List Char} :
    after? start cs = some r ↔ cs = start ++ r := by
  constructor
  · intro h
    unfold after? at h
    split at h
    · rename_i hp
      obtain ⟨t, rfl⟩ := List.isPrefixOf_iff_prefix.1 hp
      simp_all
    · simp at h
  · rintro rfl
    exact after?_append start r

/-- Nothing follows a beginning that is not there. -/
theorem after?_eq_none_iff {start cs : List Char} : after? start cs = none ↔ ¬ start <+: cs := by
  simp [after?]

/-! ### Connecting to a plugin -/

/-- Reads an address; a malformed one is a fault of the configuration. -/
def read (raw : String) : Except Fault Address :=
  match parse raw with
  | .ok a => .ok a
  | .error e => .error (.configuration e.message)

/-- Whether a connection can be tried at all. -/
def isTarget : Address → Bool
  | unix _ => true
  | tcp url => (Http.Uri.parse url).toBool

/-- How a connection to an address fails at which nobody listens. -/
def refusal (a : Address) : Fault :=
  .transport (if a.isTarget then "transport error" else "invalid URI")

/-- A malformed address is no matter for another try, a failed connection is. -/
theorem isRetryable_refusal (a : Address) : a.refusal.isRetryable = true := by
  unfold refusal
  split <;> rfl

end Address

end StorageFeatures
