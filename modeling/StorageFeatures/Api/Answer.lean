import StorageFeatures.Fault
import StorageFeatures.Http.Status
import StorageFeatures.Http.Uri

/-!
# Answers of an API server

An answer is either an error, whose body says what went wrong, or a document of the kind that was
asked for. An error whose body says nothing usable is described by its status and its body.
-/

namespace StorageFeatures

open Json

def ErrorResponse.ofJson : Reads ErrorResponse
  | .object ms => do
    let status ← require "status" (← field ms "status" readString)
    let message ← field ms "message" readString
    let reason ← field ms "reason" readString
    let code ← require "code" (← field ms "code" (readInteger 0 65535 "u16"))
    return ⟨status, message.getD "", reason.getD "", code.toNat⟩
  | .array items => do
    let shape := "struct ErrorResponse with 4 elements"
    let status ← requireItem 0 shape (← item items 0 readString)
    let message ← item items 1 readString
    let reason ← item items 2 readString
    let code ← requireItem 3 shape (← item items 3 (readInteger 0 65535 "u16"))
    noMoreItems items 4
    return ⟨status, message.getD "", reason.getD "", code.toNat⟩
  | j => .error (.wrongType j.found "struct ErrorResponse")

namespace Api

/-- Reads a document out of a text. -/
def document? (read : Reads α) (text : String) : Option α :=
  match parse text with
  | .ok j => (read j).toOption
  | .error _ => none

/-- What an error says. -/
def errorOf (r : Http.Response) : ErrorResponse :=
  (document? ErrorResponse.ofJson r.body).getD
    ⟨Http.statusText r.status, Text.quote r.body, "Failed to parse error data", r.status⟩

/-- Reads the document that was asked for. -/
def read (reader : Reads α) (r : Http.Response) : Except ApiFault α :=
  if r.isError then .error (.refused (errorOf r))
  else
    match document? reader r.body with
    | some a => .ok a
    | none => .error .unreadableAnswer

/-- An answer with an error status is read as that refusal, whatever the reader makes of its body.
-/
theorem read_of_isError {r : Http.Response} (reader : Reads α) (h : r.isError = true) :
    read reader r = .error (.refused (errorOf r)) := by
  simp [read, h]

/-! ### Status documents -/

/-- Reads nothing but checks that a document is a text. -/
def checkString : Reads Unit := fun j => (readString j).map fun _ => ()

/-- Checks fields that may be missing. -/
def checkFields (ms : List (String × Json)) : List (String × Reads Unit) → Except Mismatch Unit
  | [] => .ok ()
  | (k, check) :: r => do
    let _ ← field ms k check
    checkFields ms r

/-- Checks the items of a record that is given as an array. -/
def checkItems : List Json → List (Reads Unit) → Except Mismatch Unit
  | [], _ => .ok ()
  | j :: _, [] => .error (.wrongLength 0 j.found.message)
  | j :: r, check :: checks => do
    check j
    checkItems r checks

/-- Checks a record of optional fields. -/
def checkRecord (fields : List (String × Reads Unit)) : Reads Unit
  | .object ms => checkFields ms fields
  | .array items => checkItems items (fields.map (·.2))
  | j => .error (.wrongType j.found "a record")

def checkCount (bound : Int) : Reads Unit := fun j =>
  (readInteger 0 bound "a count" j).map fun _ => ()

/-- The summary of a status is one of two words. -/
def checkSummary : Reads Unit := fun j =>
  let word (s : String) : Except Mismatch Unit :=
    if s = "Success" ∨ s = "Failure" then .ok ()
    else .error (.unknownVariant s ["Success", "Failure"])
  match j with
  | .null => .ok ()
  | .string s => word s
  | .object [(s, .null)] => word s
  | j => .error (.wrongType j.found "string or map")

def checkCause : Reads Unit :=
  checkRecord [("reason", checkString), ("message", checkString), ("field", checkString)]

def checkDetails : Reads Unit := fun j =>
  match j with
  | .null => .ok ()
  | j => checkRecord [("name", checkString), ("group", checkString), ("kind", checkString),
      ("uid", checkString),
      ("causes", fun j => (readList checkCause j).map fun _ => ()),
      ("retryAfterSeconds", checkCount (UInt32.size - 1))] j

/-- A document that reports how an operation went. -/
def checkStatus : Reads Unit :=
  checkRecord [("status", checkSummary), ("code", checkCount 65535), ("message", checkString),
    ("reason", checkString), ("details", checkDetails)]

/-- Whether a document calls itself a status. -/
def isStatus (j : Json) : Bool :=
  match j.get? "kind" with
  | some (.string s) => s = "Status"
  | _ => false

/-- An operation answers with a status or with the object that it was about. -/
def readStatusOr (reader : Reads α) : Reads Unit := fun j =>
  if isStatus j then checkStatus j else (reader j).map fun _ => ()

/-! ### Lists -/

/-- A list of objects and where its next part and its changes are found. -/
structure Listing (α : Type) where
  items : List α
  resourceVersion : Option String := none
  continuation : Option String := none

/-- Reads the metadata of a list. -/
def readListMeta : Reads (Option String × Option String)
  | .object ms => do
    let continuation ← lastField ms "continue" readString
    let _ ← lastField ms "remainingItemCount" readInt64
    let resourceVersion ← lastField ms "resourceVersion" readString
    let _ ← lastField ms "selfLink" readString
    return (resourceVersion, continuation)
  | j => .error (.wrongType j.found "ListMeta")

/-- Null stands for an empty list. -/
def readListItems (reader : Reads α) : Reads (List α) := fun j => do
  return (← readOption (readList reader) j).getD []

def readListing (reader : Reads α) : Reads (Listing α)
  | .object ms => do
    let metadata ← field ms "metadata" readListMeta
    let items ← field ms "items" (readListItems reader)
    let (resourceVersion, continuation) ← require "metadata" metadata
    let items ← require "items" items
    return { items, resourceVersion, continuation }
  | .array values => do
    let shape := "struct ObjectList with 2 elements"
    let (resourceVersion, continuation) ← requireItem 0 shape (← item values 0 readListMeta)
    let items ← requireItem 1 shape (← item values 1 (readListItems reader))
    noMoreItems values 2
    return { items, resourceVersion, continuation }
  | j => .error (.wrongType j.found "struct ObjectList")

/-! ### Versions -/

/-- Reads the version that a server reports; all other fields are checked only. -/
def readVersion : Reads String
  | .object ms => do
    let text (k : String) : Except Mismatch (Option String) := lastField ms k readString
    let _ ← text "buildDate"
    let _ ← text "compiler"
    let _ ← text "gitCommit"
    let _ ← text "gitTreeState"
    let version ← text "gitVersion"
    let _ ← text "goVersion"
    let _ ← text "major"
    let _ ← text "minor"
    let _ ← text "platform"
    return version.getD ""
  | j => .error (.wrongType j.found "Info")

end Api

end StorageFeatures
