import StorageFeatures.Http.Uri
import StorageFeatures.Json.Decode
import StorageFeatures.Json.Reader

/-!
# Faults

`Fault` lists the causes for which an operation of this library fails, `Fault.message` words
them, and `Fault.action` says whether trying again can help: a fault of the input would only be
met again, a cache that has no full list yet needs a moment, and everything else is retried with
growing delays. `Span.text` writes the nanoseconds of a deadline in the largest of the units `s`,
`ms`, `µs`, `ns` that leaves a whole part, with the rest as a decimal fraction without trailing
zeros.
-/

namespace StorageFeatures.Span

/-- The lowest `places` decimal digits of `n`, highest first. -/
def digits : Nat → Nat → List Char
  | 0, _ => []
  | places + 1, n => digits places (n / 10) ++ [Nat.digitChar (n % 10)]

/-- `n / 10 ^ places` as a decimal without trailing zeros. -/
def decimal (n places : Nat) : String :=
  let fraction := (digits places n).reverse.dropWhile (· == '0') |>.reverse
  let whole := toString (n / Nat.pow 10 places)
  if fraction.isEmpty then whole else whole ++ "." ++ String.ofList fraction

/-- The text of a span of so many nanoseconds. -/
def text (nanoseconds : Nat) : String :=
  if 1000000000 ≤ nanoseconds then decimal nanoseconds 9 ++ "s"
  else if 1000000 ≤ nanoseconds then decimal nanoseconds 6 ++ "ms"
  else if 1000 ≤ nanoseconds then decimal nanoseconds 3 ++ "µs"
  else decimal nanoseconds 0 ++ "ns"

@[simp] theorem length_digits (places n : Nat) : (digits places n).length = places := by
  induction places generalizing n with
  | zero => rfl
  | succ places ih => simp [digits, ih]

example : text 0 = "0ns" := by decide +kernel
example : text 1500000000 = "1.5s" := by decide +kernel
example : text 1001 = "1.001µs" := by decide +kernel

end StorageFeatures.Span

namespace StorageFeatures

/-- The body of a failed answer of an API server. -/
structure ErrorResponse where
  status : String
  message : String
  reason : String
  code : Nat
  deriving DecidableEq, Repr

/-- Why a request to an API server failed. -/
inductive ApiFault where
  /-- The server answered with an error. -/
  | refused (response : ErrorResponse)
  /-- The body of the answer is not what was asked for. -/
  | unreadableAnswer
  /-- The request has no valid target. -/
  | badTarget (cause : Http.UriFault)
  /-- The server cannot be reached. -/
  | unreachable (text : String)
  deriving DecidableEq, Repr

/-- The status that ends a remote call: a code of gRPC and a text. -/
structure RpcStatus where
  code : Nat
  message : String
  deriving DecidableEq, Repr

/-- Why JSON cannot be read. -/
inductive JsonFault where
  | malformed (error : Json.TextError)
  | mismatch (error : Json.Mismatch)
  deriving DecidableEq, Repr

/-- Why an operation failed. -/
inductive Fault where
  | internal (text : String)
  | configuration (text : String)
  | api (cause : ApiFault)
  | notFound (kind name : String)
  | alreadyExists (kind name : String)
  | invalidObject (kind reason : String)
  | nameMismatch (capability storageClass : String)
  | cacheNotSynced (kind : String)
  | invalidVersion (text : String)
  | rpc (method : String) (status : RpcStatus)
  | rpcTimeout (method : String) (nanoseconds : Nat)
  | transport (text : String)
  | driverNameMismatch (expected actual : String)
  | unreadableJson (cause : JsonFault)
  | io (text : String)
  | metrics (text : String)
  | server (text : String)
  deriving DecidableEq, Repr

/-- What to do with a key whose pass failed. -/
inductive RetryAction where
  | requeueWithBackoff
  | requeueAfter (milliseconds : Nat)
  | noRequeue
  deriving DecidableEq, Repr

/-! ### Texts -/

namespace RpcStatus

/-- The names of the codes from zero on. -/
def codeNames : List String :=
  ["Ok", "Cancelled", "Unknown", "InvalidArgument", "DeadlineExceeded", "NotFound",
   "AlreadyExists", "PermissionDenied", "ResourceExhausted", "FailedPrecondition", "Aborted",
   "OutOfRange", "Unimplemented", "Internal", "Unavailable", "DataLoss", "Unauthenticated"]

/-- The code for a number; numbers without a name stand for `Unknown`. -/
def codeOf (n : Int) : Nat := if 0 ≤ n ∧ n ≤ 16 then n.toNat else 2

def codeName (code : Nat) : String := codeNames.getD code "Unknown"

def text (s : RpcStatus) : String :=
  "status: " ++ codeName s.code ++ ", message: " ++ Text.quote s.message ++
    ", details: [], metadata: MetadataMap \x7b headers: \x7b\x7d \x7d"

end RpcStatus

def ErrorResponse.text (r : ErrorResponse) : String :=
  "ApiError: " ++ r.message ++ ": " ++ r.reason ++ " (ErrorResponse \x7b status: " ++
    Text.quote r.status ++ ", message: " ++ Text.quote r.message ++ ", reason: " ++
    Text.quote r.reason ++ ", code: " ++ toString r.code ++ " \x7d)"

def ApiFault.text : ApiFault → String
  | refused response => response.text
  | unreadableAnswer => "Error deserializing response"
  | badTarget cause => "Failed to build request: failed to build request: " ++ cause.message
  | unreachable text => "HyperError: error trying to connect: " ++ text

def JsonFault.text : JsonFault → String
  | malformed error => error.message
  | mismatch error => error.message

namespace Fault

def message : Fault → String
  | internal text => "Internal error: " ++ text
  | configuration text => "Configuration error: " ++ text
  | api cause => "Kubernetes API error: " ++ cause.text
  | notFound kind name => "Resource not found: " ++ kind ++ "/" ++ name
  | alreadyExists kind name => "Resource already exists: " ++ kind ++ "/" ++ name
  | invalidObject kind reason => "Invalid " ++ kind ++ " object: " ++ reason
  | nameMismatch capability storageClass =>
    "StorageClassCapability name should be the same as StorageClass name, but " ++ capability ++
      " != " ++ storageClass
  | cacheNotSynced kind => "Watch cache for " ++ kind ++ " has not synced"
  | invalidVersion text => "Invalid Kubernetes version: " ++ text
  | rpc method status => "CSI call " ++ method ++ " failed: " ++ status.text
  | rpcTimeout method nanoseconds =>
    "CSI call " ++ method ++ " timed out after " ++ Span.text nanoseconds
  | transport text => "CSI transport error: " ++ text
  | driverNameMismatch expected actual =>
    "Probed driver name " ++ actual ++ " does not match configured driver name " ++ expected
  | unreadableJson cause => "JSON parse error: " ++ cause.text
  | io text => "IO error: " ++ text
  | metrics text => "Metrics error: Error: " ++ text
  | server text => "HTTP server error: " ++ text

/-! ### Consequences -/

/-- Whether and when the key of a failed pass is tried again. -/
def action : Fault → RetryAction
  | cacheNotSynced _ => .requeueAfter 1000
  | configuration _ | invalidObject .. | nameMismatch .. | driverNameMismatch ..
  | invalidVersion _ => .noRequeue
  | _ => .requeueWithBackoff

/-- Whether trying again can help. -/
def isRetryable (f : Fault) : Bool := f.action ≠ .noRequeue

/-- Whether the fault says that the object does not exist. -/
def isNotFound : Fault → Bool
  | notFound .. => true
  | api (.refused response) => response.code = 404
  | _ => false

/-- A missing object is worth another try. -/
theorem isRetryable_of_isNotFound {f : Fault} (h : f.isNotFound = true) : f.isRetryable = true := by
  cases f <;> simp_all [isNotFound, isRetryable, action]

end Fault

end StorageFeatures
